import DocFlow.TaskRuntime.Ownership

/-!
# The retry back-off

A task whose attempt has failed waits in `RETRY_WAIT`, and the wake-up written with it
becomes available when the back-off has passed.  A claim is said to restore the waiting
tasks that are due, but it restores all of them, whichever wake-up it was called for.  So the
back-off is respected in the runs whose claims find no task that still has to wait
(`retry_backoff`), and the lease wake-up of the failed attempt can break it
(`leaseWakeup_breaks_backoff`).
-/

namespace DocFlow.TaskRuntime

/-! ## The property -/

/-- The attempt sent its task into `RETRY_WAIT`, if it was not the last one.  A compensation
after an expired lease does not: it makes its task pending at once. -/
def EnteredRetry (e : TaskExecution) : Prop :=
  e.status = .failed ∨ (e.status = .compensated ∧ e.errorCode ≠ some leaseExpiredCode)

instance (e : TaskExecution) : Decidable (EnteredRetry e) := by unfold EnteredRetry; infer_instance

/-- No task was claimed again before the back-off of an earlier attempt had passed. -/
def BackedOff (settings : RuntimeSettings) (db : Db) : Prop :=
  ∀ e ∈ db.taskExecutions.rows, ∀ e' ∈ db.taskExecutions.rows, e'.taskId = e.taskId →
    e.attempt < e'.attempt → EnteredRetry e →
    ∃ entered ∈ e.completedAt, entered + timedelta settings.retryDelaySeconds ≤ e'.startedAt

instance (settings : RuntimeSettings) (db : Db) : Decidable (BackedOff settings db) := by
  unfold BackedOff; infer_instance

/-! ## The condition -/

/-- Every waiting task of the plan has waited long enough. -/
def Due (settings : RuntimeSettings) (db : Db) (planId : PlanId) (now : Time) : Prop :=
  ∀ t ∈ db.tasks.rows, t.planId = planId → t.status = .retryWait →
    ∃ entered ∈ t.completedAt, entered + timedelta settings.retryDelaySeconds ≤ now

/-- A claim that gets as far as selecting a task, for an event that is not recorded yet. -/
def Selects (seen : Bool) (call : ExecuteNextInput) (db : Db) : Prop :=
  seen = false ∧ ¬ call.Directed ∧ (∀ i ∈ call.eventId, db.inboxExists consumerName i = false) ∧
    ∃ p ∈ db.plans.rows, p.planId = call.planId ∧ p.currentTaskId = none ∧
      (p.status = .ready ∨ p.status = .running)

instance (settings : RuntimeSettings) (db : Db) (planId : PlanId) (now : Time) :
    Decidable (Due settings db planId now) := by
  unfold Due; infer_instance

instance (seen : Bool) (call : ExecuteNextInput) (db : Db) : Decidable (Selects seen call db) := by
  unfold Selects; infer_instance

/-- The clock does not go back. -/
def ClockAdvances (st : RuntimeState) (a : RuntimeAction) : Prop :=
  ∀ clock ∈ a.clock?, st.clock ≤ clock.read 0

/-- A claim that selects a task finds none that still has to wait. -/
def ClaimsWhenDue (settings : RuntimeSettings) (st : RuntimeState) : RuntimeAction → Prop
  | .claim _ clock seen call => Selects seen call st.db →
      Due settings st.db call.planId (clock.read 0)
  | _ => True

instance (st : RuntimeState) (a : RuntimeAction) : Decidable (ClockAdvances st a) := by
  unfold ClockAdvances; infer_instance

instance (settings : RuntimeSettings) (st : RuntimeState) (a : RuntimeAction) :
    Decidable (ClaimsWhenDue settings st a) := by
  unfold ClaimsWhenDue; cases a <;> infer_instance

/-! ## The invariant -/

/-- The back-off of the tasks that may be claimed next, seen at time `now`. -/
structure Waited (delay now : Time) (db : Db) : Prop where
  drafts : ∀ t ∈ db.tasks, t.status = .draft → t.attemptCount = 0
  started : ∀ e ∈ db.taskExecutions, e.startedAt ≤ now
  past : ∀ e ∈ db.taskExecutions, ∀ e' ∈ db.taskExecutions, e'.taskId = e.taskId →
    e.attempt < e'.attempt → EnteredRetry e →
    ∃ entered, e.completedAt = some entered ∧ entered + delay ≤ e'.startedAt
  pending : ∀ t ∈ db.tasks, t.status = .pending → ∀ e ∈ db.taskExecutions, e.taskId = t.taskId →
    e.attempt = t.attemptCount → EnteredRetry e →
    ∃ entered, e.completedAt = some entered ∧ entered + delay ≤ now
  waiting : ∀ t ∈ db.tasks, t.status = .retryWait → ∀ e ∈ db.taskExecutions, e.taskId = t.taskId →
    e.attempt = t.attemptCount → EnteredRetry e → ∃ entered, e.completedAt = some entered ∧
      t.completedAt = some entered

theorem Waited.mono {delay now now' : Time} {db : Db} (h : Waited delay now db) (hle : now ≤ now') :
    Waited delay now' db where
  drafts := h.drafts
  started := fun e he => le_trans (h.started e he) hle
  past := h.past
  pending := by
    intro t ht hst e he het hk hret
    obtain ⟨entered, hc, hd⟩ := h.pending t ht hst e he het hk hret
    exact ⟨entered, hc, le_trans hd hle⟩
  waiting := h.waiting

section Effects

variable {registry : CapabilityRegistry} {delay now : Time} {db db' : Db}

/-! ### Rows that change in place -/

/-- A task row rewritten without ending its wait. -/
structure WaitKept (t t' : Task) : Prop where
  taskId : t'.taskId = t.taskId
  attemptCount : t'.attemptCount = t.attemptCount
  draft : t'.status = .draft → t.status = .draft
  pending : t'.status = .pending → t.status = .pending ∨ t.attemptCount = 0
  waiting : t'.status = .retryWait → t.status = .retryWait ∧ t'.completedAt = t.completedAt

/-- An execution row rewritten without sending its task into `RETRY_WAIT`. -/
structure AttemptKept (e e' : TaskExecution) : Prop where
  taskId : e'.taskId = e.taskId
  attempt : e'.attempt = e.attempt
  startedAt : e'.startedAt = e.startedAt
  entered : EnteredRetry e' → EnteredRetry e ∧ e'.completedAt = e.completedAt

theorem WaitKept.refl (t : Task) : WaitKept t t := ⟨rfl, rfl, id, .inl, fun h => ⟨h, rfl⟩⟩

theorem AttemptKept.refl (e : TaskExecution) : AttemptKept e e := ⟨rfl, rfl, rfl, fun h => ⟨h, rfl⟩⟩

theorem Waited.rewrite (hcons : Consistent registry db) (h : Waited delay now db)
    (ht : Table.Corr WaitKept db.tasks db'.tasks)
    (he : Table.Corr AttemptKept db.taskExecutions db'.taskExecutions) : Waited delay now db' where
  drafts := by
    intro t' ht' hst
    obtain ⟨t, htm, hk⟩ := ht.back t' ht'
    rw [hk.attemptCount]
    exact h.drafts t htm (hk.draft hst)
  started := by
    intro e' he'
    obtain ⟨e, hem, hk⟩ := he.back e' he'
    rw [hk.startedAt]
    exact h.started e hem
  past := by
    intro x' hx' y' hy' htask hlt hret
    obtain ⟨x, hx, hxk⟩ := he.back x' hx'
    obtain ⟨y, hy, hyk⟩ := he.back y' hy'
    rw [hxk.taskId, hyk.taskId] at htask
    rw [hxk.attempt, hyk.attempt] at hlt
    obtain ⟨hret, hcomp⟩ := hxk.entered hret
    rw [hcomp, hyk.startedAt]
    exact h.past x hx y hy htask hlt hret
  pending := by
    intro t' ht' hst e' he' het hk hret
    obtain ⟨t, htm, htk⟩ := ht.back t' ht'
    obtain ⟨e, hem, hek⟩ := he.back e' he'
    rw [hek.taskId, htk.taskId] at het
    rw [hek.attempt, htk.attemptCount] at hk
    obtain ⟨hret, hcomp⟩ := hek.entered hret
    rw [hcomp]
    rcases htk.pending hst with hst | hzero
    · exact h.pending t htm hst e hem het hk hret
    · -- attempts are numbered from one
      obtain ⟨x, -, -, -, hpos, -⟩ := hcons.taskOfExecution e hem
      omega
  waiting := by
    intro t' ht' hst e' he' het hk hret
    obtain ⟨t, htm, htk⟩ := ht.back t' ht'
    obtain ⟨e, hem, hek⟩ := he.back e' he'
    rw [hek.taskId, htk.taskId] at het
    rw [hek.attempt, htk.attemptCount] at hk
    obtain ⟨hret, hcomp⟩ := hek.entered hret
    obtain ⟨hst, hcomp'⟩ := htk.waiting hst
    rw [hcomp, hcomp']
    exact h.waiting t htm hst e hem het hk hret

/-! ### An attempt that ends -/

theorem Settlement.waits {p p' : Plan} {t t' : Task} {e e' : TaskExecution}
    {news : List OutboxEvent} (h : Settlement db' p p' t t' e e' news) :
    t'.status ≠ .draft ∧ (t'.status = .pending → ¬ EnteredRetry e') ∧
      (t'.status = .retryWait → ∃ entered, e'.completedAt = some entered ∧
        t'.completedAt = some entered) := by
  cases h with
  | succeeded _ _ _ hst => simp [hst]
  | finished _ _ _ hst => simp [hst]
  | stuck _ _ _ hst => simp [hst]
  | replanned _ _ _ hst => rcases hst with hst | hst <;> simp [hst]
  | retried _ _ hretries =>
    cases hretries with
    | atOnce hst hcomp hcode => simp [hst, EnteredRetry, hcomp, hcode]
    | waiting now hst ht he => simp [hst, ht, he]

theorem Waited.settled (hcons : Consistent registry db) (h : Waited delay now db) {p p' : Plan}
    {t t' : Task} {e e' : TaskExecution} {news : List OutboxEvent} (ht : t ∈ db.tasks)
    (he : e ∈ db.taskExecutions) (hte : e.taskId = t.taskId) (hsame : SameTask t t')
    (hsamee : SameAttempt e e') (htasks : db'.tasks = db.tasks.save t')
    (hexecs : db'.taskExecutions = db.taskExecutions.save e')
    (hsettle : Settlement db' p p' t t' e e' news) : Waited delay now db' := by
  obtain ⟨hdraft, hpend, hwait⟩ := hsettle.waits
  have memTask : ∀ x, x ∈ db'.tasks ↔ x = t' ∨ (x ∈ db.tasks ∧ x ≠ t) := by
    intro x
    rw [htasks]
    exact Table.mem_save_of_mem ht hsame.taskId
  have memExec : ∀ x, x ∈ db'.taskExecutions ↔ x = e' ∨ (x ∈ db.taskExecutions ∧ x ≠ e) := by
    intro x
    rw [hexecs]
    exact Table.mem_save_of_mem he hsamee.executionId
  -- the attempt that ends is the latest of its task
  have hlast : e.attempt = t.attemptCount :=
    ((hcons.active t ht e he hte).mp hsettle.ended.wasActive).2
  have hmax : ∀ x ∈ db.taskExecutions, x.taskId = e.taskId → x.attempt ≤ e.attempt := by
    intro x hx hxe
    obtain ⟨y, hy, hyx, -, -, hle⟩ := hcons.taskOfExecution x hx
    have hyt : y = t := Table.eq_of_key hy ht (by rw [hyx, hxe, hte])
    rw [hyt] at hle
    omega
  have hother : ∀ x ∈ db.tasks, x ≠ t → x.taskId ≠ e.taskId :=
    fun x hx hne hid => hne (Table.eq_of_key hx ht (hid.trans hte))
  refine ⟨?_, ?_, ?_, ?_, ?_⟩
  · intro x hx hst
    rcases (memTask x).mp hx with rfl | ⟨hx, -⟩
    · exact absurd hst hdraft
    · exact h.drafts x hx hst
  · intro x hx
    rcases (memExec x).mp hx with rfl | ⟨hx, -⟩
    · rw [hsamee.startedAt]
      exact h.started e he
    · exact h.started x hx
  · intro x hx y hy hxy hlt hret
    have hstarted : ∃ y₀ ∈ db.taskExecutions, y₀.taskId = y.taskId ∧ y₀.attempt = y.attempt ∧
        y.startedAt = y₀.startedAt := by
      rcases (memExec y).mp hy with rfl | ⟨hy, -⟩
      · exact ⟨e, he, hsamee.taskId.symm, hsamee.attempt.symm, hsamee.startedAt⟩
      · exact ⟨y, hy, rfl, rfl, rfl⟩
    obtain ⟨y₀, hy₀, hyt, hyk, hys⟩ := hstarted
    rcases (memExec x).mp hx with rfl | ⟨hx, -⟩
    · have hle := hmax y₀ hy₀ (by rw [hyt, hxy, hsamee.taskId])
      rw [hsamee.attempt] at hlt
      omega
    · rw [hys]
      exact h.past x hx y₀ hy₀ (hyt.trans hxy) (by omega) hret
  · intro x hx hst y hy hyx hk hret
    rcases (memTask x).mp hx with rfl | ⟨hx, hxt⟩
    · rcases (memExec y).mp hy with rfl | ⟨hy, hye⟩
      · exact absurd hret (hpend hst)
      · rw [hsame.taskId] at hyx
        rw [hsame.attemptCount] at hk
        exact absurd (hcons.unique y hy e he (hyx.trans hte.symm) (hk.trans hlast.symm)) hye
    · rcases (memExec y).mp hy with rfl | ⟨hy, -⟩
      · rw [hsamee.taskId] at hyx
        exact absurd hyx.symm (hother x hx hxt)
      · exact h.pending x hx hst y hy hyx hk hret
  · intro x hx hst y hy hyx hk hret
    rcases (memTask x).mp hx with rfl | ⟨hx, hxt⟩
    · rcases (memExec y).mp hy with rfl | ⟨hy, hye⟩
      · exact hwait hst
      · rw [hsame.taskId] at hyx
        rw [hsame.attemptCount] at hk
        exact absurd (hcons.unique y hy e he (hyx.trans hte.symm) (hk.trans hlast.symm)) hye
    · rcases (memExec y).mp hy with rfl | ⟨hy, -⟩
      · rw [hsamee.taskId] at hyx
        exact absurd hyx.symm (hother x hx hxt)
      · exact h.waiting x hx hst y hy hyx hk hret

/-- **The step**, for a transaction that is not a claim. -/
theorem Effect.waited (hcons : Consistent registry db) (h : Waited delay now db)
    (heff : Effect registry none db db') : Waited delay now db' := by
  cases heff with
  | quiet _ ht _ he => exact h.rewrite hcons (.of_eq .refl ht) (.of_eq .refl he)
  | advanced e e' _ hem hsame hadv _ ht _ he =>
    refine h.rewrite hcons (.of_eq .refl ht) ?_
    rw [he]
    refine .save .refl hem hsame.executionId ⟨hsame.taskId, hsame.attempt, hsame.startedAt, ?_⟩
    intro hret
    have hact : isActive e'.status = true := hadv.isActive.trans hadv.wasActive
    rcases hret with hst | ⟨hst, -⟩ <;> rw [hst] at hact <;> cases hact
  | settled p p' t t' e e' news _ ht he _ _ hte _ _ hsame hsamee _ htasks _ hexecs _ hsettle =>
    exact h.settled hcons ht he hte hsame hsamee htasks hexecs hsettle
  | resumed _ hclaiming => exact absurd rfl hclaiming
  | started _ _ _ _ _ hclaiming => cases hclaiming
  | planCreated _ _ _ _ ht _ he => exact h.rewrite hcons (.of_eq .refl ht) (.of_eq .refl he)
  | taskCreated p t _ _ _ hst hzero _ hins _ he =>
    have hold : ∀ x ∈ db'.tasks, x.status ≠ .draft → x ∈ db.tasks := by
      intro x hx hne
      rcases (Table.mem_insert hins).mp hx with hx | rfl
      · exact hx
      · exact absurd hst hne
    refine ⟨fun x hx hxst => ?_, ?_, ?_, fun x hx hxst => ?_, fun x hx hxst => ?_⟩
    · rcases (Table.mem_insert hins).mp hx with hx | rfl
      · exact h.drafts x hx hxst
      · exact hzero
    · rw [he]
      exact h.started
    · rw [he]
      exact h.past
    · rw [he]
      exact h.pending x (hold x hx (by simp [hxst])) hxst
    · rw [he]
      exact h.waiting x (hold x hx (by simp [hxst])) hxst
  | published p _ _ _ _ _ _ _ _ ht _ he =>
    refine h.rewrite hcons ?_ (.of_eq .refl he)
    rw [ht]
    refine .mapRows (Planning.publishTask_taskId _) fun t htm => ?_
    unfold Planning.publishTask
    split
    · next hin =>
      obtain ⟨x, hx, hid⟩ := List.mem_map.mp hin
      obtain ⟨hxm, -, hxst⟩ := Db.mem_listByPlanIdAndStatus.mp hx
      rw [Table.eq_of_key hxm htm hid] at hxst
      exact ⟨rfl, rfl, nofun, fun _ => .inr (h.drafts t htm hxst), nofun⟩
    · exact .refl t
  | closed p _ status _ _ _ _ _ _ _ _ _ _ hstatus _ ht _ he =>
    refine h.rewrite hcons ?_ (.of_eq .refl he)
    rw [ht]
    refine .mapRows (Db.unfinishedWithStatus_taskId _ _) fun t _ => ?_
    unfold Db.unfinishedWithStatus
    split
    · rcases hstatus with rfl | rfl
      · exact ⟨rfl, rfl, nofun, nofun, nofun⟩
      · exact ⟨rfl, rfl, nofun, nofun, nofun⟩
    · exact .refl t

/-! ### An attempt that starts -/

/-- Putting the waiting tasks back is harmless when all of them are due. -/
theorem Waited.resume {settings : RuntimeSettings} {planId : PlanId}
    (h : Waited (timedelta settings.retryDelaySeconds) now db) (hdue : Due settings db planId now) :
    Waited (timedelta settings.retryDelaySeconds) now (resumeRetrying planId db) where
  drafts := by
    intro t ht hst
    rcases mem_resumeRetrying.mp ht with ⟨ht, -⟩ | ⟨x, -, -, -, rfl⟩
    · exact h.drafts t ht hst
    · cases hst
  started := h.started
  past := h.past
  pending := by
    intro t ht hst e he het hk hret
    rcases mem_resumeRetrying.mp ht with ⟨ht, -⟩ | ⟨x, hx, hxp, hxst, rfl⟩
    · exact h.pending t ht hst e he het hk hret
    · obtain ⟨entered, hcomp, hcomp'⟩ := h.waiting x hx hxst e he het hk hret
      obtain ⟨entered', hmem, hle⟩ := hdue x hx hxp hxst
      obtain rfl : entered = entered' := Option.some.inj (hcomp'.symm.trans hmem)
      exact ⟨entered, hcomp, hle⟩
  waiting := by
    intro t ht hst
    rcases mem_resumeRetrying.mp ht with ⟨ht, -⟩ | ⟨x, -, -, -, rfl⟩
    · exact h.waiting t ht hst
    · cases hst

/-- Every earlier attempt of a pending task has been waited for. -/
theorem Waited.all_past (hcons : Consistent registry db) (h : Waited delay now db) {t : Task}
    (ht : t ∈ db.tasks) (hst : t.status = .pending) {e : TaskExecution}
    (he : e ∈ db.taskExecutions) (het : e.taskId = t.taskId) (hret : EnteredRetry e) :
    ∃ entered, e.completedAt = some entered ∧ entered + delay ≤ now := by
  obtain ⟨x, hx, hxe, -, hpos, hle⟩ := hcons.taskOfExecution e he
  obtain rfl : x = t := Table.eq_of_key hx ht (hxe.trans het)
  by_cases hk : e.attempt = x.attemptCount
  · exact h.pending x ht hst e he het hk hret
  · -- the attempt after it was backed off, and has started before now
    obtain ⟨e', he', het', hk'⟩ := hcons.attempts x hx x.attemptCount (by omega) le_rfl
    obtain ⟨entered, hcomp, hd⟩ := h.past e he e' he' (het'.trans het.symm) (by omega) hret
    exact ⟨entered, hcomp, le_trans hd (h.started e' he')⟩

theorem Waited.attemptStarted (hcons : Consistent registry db) (h : Waited delay now db) {p : Plan}
    {t : Task} {d : CapabilityDefinition} {ids : ClaimIds} {clock : Clock}
    (hnow : now ≤ clock.read 0) (ht : t ∈ db.tasks) (hst : t.status = .pending)
    (htasks : db'.tasks = db.tasks.save (startTask d clock t))
    (hexecs : db.taskExecutions.insert (newExecution d ids clock p (startTask d clock t)) =
      some db'.taskExecutions) : Waited delay (clock.read 3) db' := by
  have h₀₂ : clock.read 0 ≤ clock.read 2 := clock.monotone (by decide)
  have h₂₃ : clock.read 2 ≤ clock.read 3 := clock.monotone (by decide)
  have hnow₂ : now ≤ clock.read 2 := le_trans hnow h₀₂
  have hnow₃ : now ≤ clock.read 3 := le_trans hnow₂ h₂₃
  have hlater := h.mono hnow₃
  have memTask : ∀ x, x ∈ db'.tasks ↔ x = startTask d clock t ∨ (x ∈ db.tasks ∧ x ≠ t) := by
    intro x
    rw [htasks]
    exact Table.mem_save_of_mem ht rfl
  have memExec : ∀ x, x ∈ db'.taskExecutions ↔
      x ∈ db.taskExecutions ∨ x = newExecution d ids clock p (startTask d clock t) :=
    fun x => Table.mem_insert hexecs
  have hrunning : ¬ EnteredRetry (newExecution d ids clock p (startTask d clock t)) := by
    simp [EnteredRetry, newExecution]
  have hother : ∀ x ∈ db.tasks, x ≠ t → x.taskId ≠ t.taskId :=
    fun x hx hne hid => hne (Table.eq_of_key hx ht hid)
  refine ⟨?_, ?_, ?_, ?_, ?_⟩
  · intro x hx hxst
    rcases (memTask x).mp hx with rfl | ⟨hx, -⟩
    · cases hxst
    · exact h.drafts x hx hxst
  · intro x hx
    rcases (memExec x).mp hx with hx | rfl
    · exact hlater.started x hx
    · exact h₂₃
  · intro x hx y hy hxy hlt hret
    rcases (memExec x).mp hx with hx | rfl
    · rcases (memExec y).mp hy with hy | rfl
      · exact h.past x hx y hy hxy hlt hret
      · obtain ⟨entered, hcomp, hd⟩ := h.all_past hcons ht hst hx hxy.symm hret
        exact ⟨entered, hcomp, le_trans hd hnow₂⟩
    · exact absurd hret hrunning
  · intro x hx hxst y hy hyx hk hret
    rcases (memTask x).mp hx with rfl | ⟨hx, hxt⟩
    · cases hxst
    · rcases (memExec y).mp hy with hy | rfl
      · exact hlater.pending x hx hxst y hy hyx hk hret
      · exact absurd hret hrunning
  · intro x hx hxst y hy hyx hk hret
    rcases (memTask x).mp hx with rfl | ⟨hx, hxt⟩
    · cases hxst
    · rcases (memExec y).mp hy with hy | rfl
      · exact h.waiting x hx hxst y hy hyx hk hret
      · exact absurd hret hrunning

theorem Effects.waited {db db' : Db} (heff : Effects registry none db db')
    (hcons : Consistent registry db) (h : Waited delay now db) : Waited delay now db' :=
  (heff.preserves (P := fun db => Consistent registry db ∧ Waited delay now db)
    (fun _ _ hP he => ⟨he.consistent hP.1, he.waited hP.1 hP.2⟩) ⟨hcons, h⟩).2

end Effects

/-! ## Every claim -/

section Claims

variable {settings : RuntimeSettings} {registry : CapabilityRegistry} {now : Time} {db db' : Db}
  {ids : ClaimIds} {clock : Clock} {call : ExecuteNextInput} {r : ClaimNextTaskResult}

theorem InboxOnly.waited {delay : Time} (h : InboxOnly db db') (hcons : Consistent registry db)
    (hw : Waited delay now db) : Waited delay now db' :=
  h.effect.waited hcons hw

theorem ClaimStep.waited (hcons : Consistent registry db)
    (h : Waited (timedelta settings.retryDelaySeconds) now db) (hnow : now ≤ clock.read 0)
    (hdue : Selects false call db → Due settings db call.planId (clock.read 0))
    (hstep : ClaimStep registry ids clock call db r db') :
    Waited (timedelta settings.retryDelaySeconds) (clock.read 3) db' := by
  have h₀₃ : clock.read 0 ≤ clock.read 3 := clock.monotone (by decide)
  have hlater := h.mono (le_trans hnow h₀₃)
  have hresume : ∀ p, db.plans.get? call.planId = some p → p.currentTaskId = none →
      ¬ call.Directed → p.status = .ready ∨ p.status = .running →
      (∀ i ∈ call.eventId, db.inboxExists consumerName i = false) →
      Consistent registry (resumeRetrying p.planId db) ∧
      Waited (timedelta settings.retryDelaySeconds) (clock.read 0) (resumeRetrying p.planId db) := by
    intro p hp hcur hundirected hst hfresh
    obtain ⟨hpm, hpid⟩ := Table.get?_eq_some.mp hp
    have heff : Effect registry (some (ids, clock)) db (resumeRetrying p.planId db) :=
      resumeRetrying_effect (by simp) p.planId
    refine ⟨heff.consistent hcons, (h.mono hnow).resume ?_⟩
    rw [hpid]
    exact hdue ⟨rfl, hundirected, hfresh, p, hpm, hpid, hcur, hst⟩
  cases r with
  | noTask =>
    cases hstep with
    | idle p _ hp hcur hundirected hst _ hdb =>
      rcases hdb with ⟨-, rfl⟩ | hdb
      · exact hlater
      · have hfresh := recordInbox_fresh hdb
        obtain ⟨hcons', hw⟩ := hresume p hp hcur hundirected hst hfresh
        exact (recordInbox_inboxOnly hdb).waited hcons' (hw.mono h₀₃)
  | claimed task =>
    cases hstep with
    | claimed p t d c db₁ db₂ _ hp hcur hundirected hst hnext hd h₁ h₂ h₃ =>
      have hfresh := recordInbox_fresh h₃
      have hinbox : db₂.inbox = db.inbox := by
        obtain ⟨-, execs, -, rfl⟩ := Db.addExecution_eq_ok.mp h₁
        obtain ⟨outbox, -, rfl⟩ := Db.addOutbox_eq_ok.mp h₂
        rfl
      unfold Db.inboxExists at hfresh
      rw [hinbox] at hfresh
      obtain ⟨hcons', hw⟩ := hresume p hp hcur hundirected hst hfresh
      obtain ⟨ht, -, hpend, -⟩ := Db.getNextRunnable_eq_some hnext
      have hcons₂ := (started_effect hp hcur hst hnext hd h₁ h₂).consistent hcons'
      obtain ⟨-, execs, hexecs, rfl⟩ := Db.addExecution_eq_ok.mp h₁
      obtain ⟨outbox, -, rfl⟩ := Db.addOutbox_eq_ok.mp h₂
      exact (recordInbox_inboxOnly h₃).waited hcons₂
        (hw.attemptStarted hcons' le_rfl ht hpend rfl hexecs)
  | compensationRequired | compensationLocked | alreadyRunning | terminal =>
    exact (hstep.unselected_effects nofun nofun).waited hcons hlater

end Claims

/-! ## Every run -/

section Runs

variable {config : RuntimeConfig} {st st' : RuntimeState} {a : RuntimeAction}

theorem clock_after (hstep : (runtime config).step st a = some st') :
    st'.clock = (a.clock?.map (Clock.read · 3)).getD st.clock := by
  obtain ⟨-, rfl⟩ := runtime_step hstep
  unfold RuntimeState.after
  split <;> rfl

theorem clock_mono (hok : ClockAdvances st a) (hstep : (runtime config).step st a = some st') :
    st.clock ≤ st'.clock := by
  rw [clock_after hstep]
  cases hc : a.clock? with
  | none => exact le_rfl
  | some clock => exact le_trans (hok clock hc) (clock.monotone (by decide))

theorem Waited.step (howned : Owned config.registry st)
    (h : Waited (timedelta config.settings.retryDelaySeconds) st.clock st.db)
    (hclock : ClockAdvances st a) (hdue : ClaimsWhenDue config.settings st a)
    (hstep : (runtime config).step st a = some st') :
    Waited (timedelta config.settings.retryDelaySeconds) st'.clock st'.db := by
  obtain ⟨hen, -⟩ := runtime_step hstep
  have hmono := clock_mono hclock hstep
  have hlater := h.mono hmono
  rcases runtime_step_cases hstep with ⟨s, db', htx, rfl, -⟩ | ⟨f, -, hdb, -⟩
  · by_cases hclaim : a.claiming = none
    · have heffs := transaction_effects (snapshot_coherent howned hen) htx
      rw [hclaim] at heffs
      exact heffs.waited howned.consistent hlater
    · cases a with
      | claim ids clock seen call =>
        simp only [RuntimeAction.transaction, bind_eq_ok, Prod.exists, pure_eq_ok,
          Prod.mk.injEq] at htx
        obtain ⟨r, _, hx, -, rfl⟩ := htx
        have hafter : st'.clock = clock.read 3 := clock_after hstep
        rcases claimNext_cases hx with ⟨-, -, hsame⟩ | ⟨rfl, hclaimed⟩
        · rw [hsame]
          exact hlater
        · rw [hafter]
          exact hclaimed.waited howned.consistent h (hclock clock rfl) hdue
      | _ => exact absurd rfl hclaim
  · rw [hdb]
    exact hlater

theorem RuntimeState.Fresh.waited (h : st.Fresh) (delay now : Time) : Waited delay now st.db := by
  obtain ⟨-, ht, -, he, -, -, -⟩ := h
  constructor <;> simp [Table.mem_iff, ht, he]

/-- **The back-off is respected** in every run on one non-decreasing clock whose claims find
no task that still has to wait. -/
theorem retry_backoff (config : RuntimeConfig) (st : RuntimeState)
    (h : (runtime config).ReachableVia
      (fun st a => ClockAdvances st a ∧ ClaimsWhenDue config.settings st a) st) :
    BackedOff config.settings st.db := by
  have hw : Waited (timedelta config.settings.retryDelaySeconds) st.clock st.db := by
    refine h.invariant (P := fun st =>
      Waited (timedelta config.settings.retryDelaySeconds) st.clock st.db)
      (fun _ hi => RuntimeState.Fresh.waited hi _ _) ?_
    intro s a s' hr hw hok hs
    exact hw.step (reachable_owned hr) hok.1 hok.2 hs
  intro e he e' he' htask hlt hret
  obtain ⟨entered, hcomp, hle⟩ := hw.past e he e' he' htask hlt hret
  exact ⟨entered, hcomp, hle⟩

end Runs

/-! ## The lease wake-up of the failed attempt -/

/-- The first attempt is slow: it fails and is compensated 290 seconds after its start. -/
def compensateFirstTask : List RuntimeAction :=
  [ .requireCompensation firstSnapshot ⟨"document_busy", "busy", true, false⟩,
    .beginCompensation (.at (timedelta 289)) firstSnapshot,
    .completeCompensation 3 (.at (timedelta 290)) firstSnapshot none ]

/-- The second attempt starts at `now`, with the wake-up `eventId`. -/
def claimAgain (eventId : EventId) (now : Time) : RuntimeAction :=
  .claim ⟨2, 2, 2, 4⟩ (.at now) false ⟨1, some eventId, none, none⟩

/-- The wake-up of the retry is handled when it is due. -/
def claimedWhenDue : RuntimeState :=
  ((runtime defaultConfig).run firstTurn (publishTwoTasks ++ [claimFirstTask] ++
    compensateFirstTask ++ [claimAgain 3 (timedelta 320)])).getD firstTurn

theorem claimedWhenDue_backedOff : BackedOff defaultConfig.settings claimedWhenDue.db := by
  have hrun : (runtime defaultConfig).runWhile
      (fun st a => ClockAdvances st a ∧ ClaimsWhenDue defaultConfig.settings st a) firstTurn
      (publishTwoTasks ++ [claimFirstTask] ++ compensateFirstTask ++
        [claimAgain 3 (timedelta 320)]) = some claimedWhenDue := rfl
  exact retry_backoff defaultConfig claimedWhenDue
    (reachable_of_run firstTurn_fresh (.of_runWhile hrun))

/-- The lease wake-up of the first attempt, due after 300 seconds, is handled before the
wake-up of the retry. -/
def claimedTooEarly : RuntimeState :=
  ((runtime defaultConfig).run firstTurn (publishTwoTasks ++ [claimFirstTask] ++
    compensateFirstTask ++ [claimAgain 2 (timedelta 300)])).getD firstTurn

/-- **The back-off can be broken**: on a non-decreasing clock, by a wake-up that is handled when
it has become available. -/
theorem leaseWakeup_breaks_backoff :
    (runtime defaultConfig).ReachableVia ClockAdvances claimedTooEarly ∧
      (∃ ev ∈ claimedTooEarly.db.outbox.rows, ev.eventId = 2 ∧ ev.availableAt ≤ timedelta 300) ∧
      ¬ BackedOff defaultConfig.settings claimedTooEarly.db := by
  have hrun : (runtime defaultConfig).runWhile ClockAdvances firstTurn
      (publishTwoTasks ++ [claimFirstTask] ++ compensateFirstTask ++
        [claimAgain 2 (timedelta 300)]) = some claimedTooEarly := rfl
  exact ⟨reachable_of_run firstTurn_fresh (.of_runWhile hrun), by decide, by decide⟩

end DocFlow.TaskRuntime
