import DocFlow.TaskRuntime.Deliveries
import DocFlow.Workflow.Clarifications
import DocFlow.Workflow.ReplanDeliveries

/-!
# A revision whose planner run is gone

A message is acknowledged when its handler has returned.  `Handled` is what the returns of a handler
have in common: they leave a revision that is not being planned (`DealtWith`), unless the handler
was delivered the message again within the lease of the run.  `replanned_not_stranded`
follows for every run without such a delivery; `lease_strands` is a run with one.
-/

namespace DocFlow.Workflow

open Planning TaskRuntime

/-! ## The revision of a request -/

/-- The plan is the revision that the request asks for. -/
structure Revises (ev : ReplanRequested) (p : Plan) : Prop where
  workflowId : p.workflowId = ev.payload.workflowId
  revision : p.revision = ev.payload.nextRevision

instance (ev : ReplanRequested) (p : Plan) : Decidable (Revises ev p) :=
  decidable_of_iff (p.workflowId = ev.payload.workflowId ∧ p.revision = ev.payload.nextRevision)
    ⟨fun h => ⟨h.1, h.2⟩, fun h => ⟨h.workflowId, h.revision⟩⟩

/-- No revision is left for the request. -/
def Exceeds (ev : ReplanRequested) : Prop := maxPlanRevisions < ev.payload.nextRevision

/-- The plan of a request, by its identifier. -/
def OpenedAs (v : View) (ev : ReplanRequested) (planId : PlanId) : Prop :=
  ∃ p ∈ v.plans, p.planId = planId ∧ Revises ev p

/-- A revision has been made for the request, or there is none left. -/
def Answered (v : View) (ev : ReplanRequested) : Prop := Exceeds ev ∨ ∃ p ∈ v.plans, Revises ev p

/-- The revision of the request is not being planned. -/
def DealtWith (v : View) (ev : ReplanRequested) : Prop :=
  Exceeds ev ∨ ∃ p ∈ v.plans, Revises ev p ∧ p.status ≠ .planning

section Steps

variable {v v' : View} {ev : ReplanRequested} {p p' : Plan} {planId : PlanId}

theorem Revises.move (h : Revises ev p) (hsame : SamePlan p p') : Revises ev p' :=
  ⟨hsame.workflowId.trans h.workflowId, hsame.revision.trans h.revision⟩

theorem PlanMove.not_planning (h : PlanMove p p') (hst : p.status ≠ .planning) :
    p'.status ≠ .planning := by
  rcases h.moved with rfl | hm
  · exact hst
  · exact hm.not_planning

theorem OpenedAs.step (h : PlansStep v v') (hopened : OpenedAs v ev planId) : OpenedAs v' ev planId := by
  obtain ⟨p, hp, hid, hrev⟩ := hopened
  obtain ⟨p', hp', hmove⟩ := h.forth p hp
  exact ⟨p', hp', hmove.same.planId.trans hid, hrev.move hmove.same⟩

theorem OpenedAs.unique {db : Db} {q : Plan} (hp : p ∈ (view db).plans) (hid : p.planId = planId)
    (hq : db.plans.get? planId = some q) : p = q := by
  obtain ⟨hqm, hqid⟩ := Table.get?_eq_some.mp hq
  exact Table.eq_of_key hp hqm (hid.trans hqid.symm)

theorem Answered.step (h : PlansStep v v') (hanswered : Answered v ev) : Answered v' ev := by
  refine hanswered.imp_right fun ⟨p, hp, hrev⟩ => ?_
  obtain ⟨p', hp', hmove⟩ := h.forth p hp
  exact ⟨p', hp', hrev.move hmove.same⟩

/-- A plan is not planned again. -/
theorem DealtWith.step (h : PlansStep v v') (hdealt : DealtWith v ev) : DealtWith v' ev := by
  refine hdealt.imp_right fun ⟨p, hp, hrev, hst⟩ => ?_
  obtain ⟨p', hp', hmove⟩ := h.forth p hp
  exact ⟨p', hp', hrev.move hmove.same, hmove.not_planning hst⟩

/-- The revision of a request that has been dealt with is not being planned. -/
theorem DealtWith.not_planning (hv : Lineage v) (h : DealtWith v ev) (hp : p ∈ v.plans)
    (hrev : Revises ev p) : p.status ≠ .planning := by
  rcases h with hmax | ⟨q, hq, hqrev, hst⟩
  · have hbound := (hv.bounded p hp).2
    rw [hrev.revision] at hbound
    exact absurd hmax (Nat.not_lt.mpr hbound)
  · obtain rfl : q = p := hv.workflowUnique q hq p hp (by
      rw [workflowRevision, workflowRevision, hqrev.workflowId, hqrev.revision, hrev.workflowId,
        hrev.revision])
    exact hst

theorem replans_kept {retries : Option PlanId} (h : WorkflowStep retries v v') (hev : ev ∈ v.replans) :
    ev ∈ v'.replans := by
  cases replansStep h with
  | same hsame => exact hsame ▸ hev
  | failed _ _ _ _ _ hreplans | retried _ _ _ _ _ _ hreplans | answered _ _ _ _ _ _ _ _ _ hreplans =>
    rw [hreplans]
    exact List.mem_append_left _ hev

end Steps

/-! ## What is recorded -/

/-- The replanner has recorded the request. -/
def ReplanRecorded (db : Db) (ev : ReplanRequested) : Prop :=
  ⟨replanConsumerName, ev.eventId⟩ ∈ db.inbox

section Records

variable {config : RuntimeConfig} {s s' : WorkflowState} {a : WorkflowAction} {db db' : Db}

def WorkflowAction.record : WorkflowAction → Option InboxEvent
  | runtime a => a.record
  | _ => none

theorem workflow_step_records (hs : Owned config.registry s.runtime)
    (h : (workflows config).step s a = some s') :
    Records a.record s.runtime.db s'.runtime.db := by
  rcases workflow_step h with ⟨action, r, rfl, -, hr, rfl⟩ | ⟨db, -, htx, rfl⟩ | rfl
  · exact runtime_step_records hr
  · exact .of_eq (transaction_consistent hs.consistent htx).2.2
  · exact .of_eq rfl

/-- Only the replanner records its requests. -/
theorem record_ne (ha : isPrepareRevision a = false) (eventId : EventId) :
    a.record ≠ some ⟨replanConsumerName, eventId⟩ := by
  cases a with
  | runtime action =>
    have hinbox : ∀ handled : Option EventId,
        inboxRow handled ≠ some ⟨replanConsumerName, eventId⟩ := by
      rintro (_ | handled)
      · nofun
      · rw [inboxRow, Option.map_some]
        intro h
        have hname : consumerName = replanConsumerName :=
          congrArg InboxEvent.consumerName (Option.some.inj h)
        exact absurd hname (by decide)
    cases action with
    | claim _ _ _ call => exact hinbox call.eventId
    | handleCompensationFailure _ _ _ handled => exact hinbox handled
    | completeCompensation _ _ _ handled => exact hinbox handled
    | prepareRevision => cases ha
    | _ => nofun
  | _ => nofun

theorem event_of_id {ev ev' : ReplanRequested} (hev : ev ∈ requestsIn db.outbox)
    (hev' : ev' ∈ requestsIn db.outbox) (hid : ev.eventId = ev'.eventId) : ev = ev' := by
  obtain ⟨row, hrow, hreq⟩ := List.mem_filterMap.mp hev
  obtain ⟨row', hrow', hreq'⟩ := List.mem_filterMap.mp hev'
  have hkey : ∀ {x : OutboxEvent} {r : ReplanRequested}, replanOf x = some r → r.eventId = x.eventId := by
    intro x r hx
    unfold replanOf at hx
    split at hx
    · rw [← Option.some.inj hx]
    · cases hx
  obtain rfl : row = row' := Table.eq_of_key hrow hrow' (by rw [← hkey hreq, hid, hkey hreq'])
  exact Option.some.inj (hreq.symm.trans hreq')

theorem replanRequest_of_mem {ev : ReplanRequested} (hev : ev ∈ requestsIn db.outbox) :
    replanRequest db ev.eventId = some ev := by
  obtain ⟨row, hrow, hreq⟩ := List.mem_filterMap.mp hev
  obtain ⟨id, type, aggregateId, payload, status, attempts, availableAt, publishedAt⟩ := row
  unfold replanOf at hreq
  split at hreq
  · next htype hpayload =>
    obtain rfl : type = .replanRequested := htype
    obtain rfl := hpayload
    obtain rfl := Option.some.inj hreq
    rw [replanRequest, Table.get?_of_mem (t := db.outbox) hrow]
  · cases hreq

theorem prepare_db {newPlanId : PlanId} {now : Time} {seen : Bool} {ev : ReplanRequested}
    (hev : ev ∈ requestsIn s.runtime.db.outbox)
    (h : (workflows config).step s
      (.runtime (.prepareRevision newPlanId (.at now) seen ev.eventId)) = some s') :
    s'.runtime.db =
      committedOr s.runtime.db (prepareRevision newPlanId now seen ev s.runtime.db) := by
  have hmap : ((runtime config).step s.runtime
      (.prepareRevision newPlanId (.at now) seen ev.eventId)).map (fun r => { s with runtime := r }) =
        some s' := h
  obtain ⟨r, hr, rfl⟩ := Option.map_eq_some_iff.mp hmap
  obtain ⟨-, rfl⟩ := runtime_step hr
  simp only [RuntimeAction.transaction, replanRequest_of_mem hev]
  exact RuntimeState.after_db _ _

theorem mark_committed {draw : RetryDraw} {planId : PlanId} {reason : BoundedText}
    (h : (workflows config).step s (.markPlanRetryPending draw.newEventId draw.resolvedAt
      draw.availableAt planId reason) = some s')
    (hx : markPlanRetryPending draw.newEventId draw.resolvedAt draw.availableAt planId reason
      s.runtime.db = .ok db') : s'.runtime.db = db' := by
  simp only [workflows, WorkflowAction.transaction, hx] at h
  split at h
  · obtain rfl := Option.some.inj h
    rfl
  · cases h

end Records

/-! ## What a preparation leaves -/

/-- A preparation answers with the revision to run, or there is none to run. -/
def Leaves (v : View) (ev : ReplanRequested) : Option PlanId → Prop
  | none => DealtWith v ev
  | some planId => OpenedAs v ev planId

section Prepare

variable {db db' : Db} {ev : ReplanRequested} {newPlanId : PlanId} {now : Time} {seen : Bool}
  {updatedAt : UpdatedAt}

theorem Leaves.answered {planId : Option PlanId} {v : View} (h : Leaves v ev planId) : Answered v ev := by
  cases planId with
  | none => exact h.imp_right fun ⟨p, hp, hrev, _⟩ => ⟨p, hp, hrev⟩
  | some planId =>
    obtain ⟨p, hp, -, hrev⟩ := h
    exact .inr ⟨p, hp, hrev⟩

theorem getByWorkflowAndRevision_eq_some {p : Plan}
    (h : db.getByWorkflowAndRevision ev.payload.workflowId ev.payload.nextRevision = some p) :
    p ∈ db.plans ∧ Revises ev p := by
  have hp := List.find?_some h
  rw [decide_eq_true_eq] at hp
  exact ⟨Table.mem_iff.mp (List.mem_of_find?_eq_some h), hp.1, hp.2⟩

/-- A revision that exists is run when it is being planned. -/
theorem leaves_existing {p : Plan} (hp : p ∈ db.plans) (hrev : Revises ev p) :
    Leaves (view db) ev (if p.status = .planning then some p.planId else none) := by
  split
  · exact ⟨p, hp, rfl, hrev⟩
  · next hst => exact .inr ⟨p, hp, hrev, hst⟩

theorem openedPlan_leaves (h : prepareRevision newPlanId now false ev db = .ok db') :
    Leaves (view db') ev (openedPlan newPlanId ev db) := by
  rw [prepareRevision, if_neg Bool.false_ne_true] at h
  simp only [bind_eq_ok] at h
  obtain ⟨p, -, turn, -, -, -, h⟩ := h
  by_cases hmax : maxPlanRevisions < ev.payload.nextRevision
  · rw [openedPlan, if_pos hmax]
    exact .inl hmax
  · rw [if_neg hmax] at h
    rw [openedPlan, if_neg hmax]
    cases hget : db.getByWorkflowAndRevision ev.payload.workflowId ev.payload.nextRevision with
    | some q =>
      rw [hget] at h
      obtain ⟨hqm, hrev⟩ := getByWorkflowAndRevision_eq_some hget
      rw [view_of_inboxOnly (db_recordInboxOnce_inboxOnly h)]
      exact leaves_existing hqm hrev
    | none =>
      rw [hget] at h
      simp only [bind_eq_ok] at h
      obtain ⟨mid, hmid, h⟩ := h
      rw [view_of_inboxOnly (db_recordInboxOnce_inboxOnly h)]
      obtain ⟨plans, -, -, hplans, rfl⟩ := insertPlan_eq_ok hmid
      exact ⟨_, (Table.mem_insert hplans).mpr (.inr rfl), rfl, rfl, rfl⟩

/-- The lease of the revision, if it is being planned, is over. -/
def LeaseOver (updatedAt : UpdatedAt) (now : Time) (ev : ReplanRequested) (db : Db) : Prop :=
  ∀ p ∈ db.getByWorkflowAndRevision ev.payload.workflowId ev.payload.nextRevision,
    p.status = .planning → updatedAt p.planId + plannerRunLease ≤ now

instance (updatedAt : UpdatedAt) (now : Time) (ev : ReplanRequested) (db : Db) :
    Decidable (LeaseOver updatedAt now ev db) :=
  inferInstanceAs (Decidable (∀ p ∈ db.getByWorkflowAndRevision ev.payload.workflowId
    ev.payload.nextRevision, p.status = .planning → updatedAt p.planId + plannerRunLease ≤ now))

theorem resumedPlan_leaves (hanswered : Answered (view db) ev) (hlease : LeaseOver updatedAt now ev db) :
    Leaves (view db) ev (resumedPlan now ev updatedAt db) := by
  unfold resumedPlan
  split
  · next hnone =>
    refine .inl (hanswered.resolve_right ?_)
    rintro ⟨p, hp, hrev⟩
    exact find?_eq_none_of hnone p hp ⟨hrev.workflowId, hrev.revision⟩
  · next p hget =>
    obtain ⟨hp, hrev⟩ := getByWorkflowAndRevision_eq_some hget
    split
    · next hst => exact .inr ⟨p, hp, hrev, hst⟩
    · next hst =>
      rw [if_neg (Int.not_lt.mpr (hlease p hget (not_not.mp hst)))]
      exact ⟨p, hp, rfl, hrev⟩

theorem preparedPlan_leaves (hanswered : seen = true → Answered (view db) ev)
    (hlease : seen = true → LeaseOver updatedAt now ev db)
    (h : prepareRevision newPlanId now seen ev db = .ok db') :
    Leaves (view db') ev (preparedPlan newPlanId now seen ev updatedAt db) := by
  cases seen with
  | false => exact openedPlan_leaves h
  | true =>
    obtain rfl : db' = db := (Except.ok.inj h).symm
    exact resumedPlan_leaves (hanswered rfl) (hlease rfl)

/-- The plan that is created is the one to run. -/
theorem createdPlan_prepared {planId : PlanId} (h : createdPlan newPlanId seen ev db = some planId) :
    preparedPlan newPlanId now seen ev updatedAt db = some planId := by
  unfold createdPlan at h
  split at h
  · cases h
  · next hcreates =>
    simp only [not_or, Bool.not_eq_true, Option.isSome_eq_false_iff, Option.isNone_iff_eq_none] at hcreates
    obtain ⟨rfl, hmax, hnone⟩ := hcreates
    simp only [preparedPlan, openedPlan, if_neg hmax, hnone]
    exact h

end Prepare

/-! ## What a handler knows -/

/-- The handler has brought the revision to its end. -/
def ReplanPhase.isDone : ReplanPhase → Bool
  | marked _ | returned => true
  | _ => false

structure Knows (db : Db) (d : Delivery) : Prop where
  requested : d.event ∈ requestsIn db.outbox
  seen : d.phase = .checked true → ReplanRecorded db d.event
  opened : ∀ planId, d.phase.plan? = some planId → OpenedAs (view db) d.event planId
  done : d.phase.isDone = true → DealtWith (view db) d.event
  created : ∀ planId, d.created = some planId → OpenedAs (view db) d.event planId

/-- Every event that the replanner has recorded is a request that has been answered. -/
def RecordsAnswered (db : Db) : Prop :=
  ∀ eventId, ⟨replanConsumerName, eventId⟩ ∈ db.inbox →
    ∃ ev ∈ requestsIn db.outbox, ev.eventId = eventId ∧ Answered (view db) ev

theorem RecordsAnswered.answered {db : Db} (h : RecordsAnswered db) {ev : ReplanRequested}
    (hev : ev ∈ requestsIn db.outbox) (hrec : ReplanRecorded db ev) : Answered (view db) ev := by
  obtain ⟨ev', hev', hid, hanswered⟩ := h ev.eventId hrec
  rw [event_of_id hev hev' hid.symm]
  exact hanswered

section Step

variable {config : RuntimeConfig} {s s' : WorkflowState} {a : WorkflowAction} {d d' : Delivery}
  {updatedAt : UpdatedAt} {action : DeliveryAction}

/-- What a step of the workflow does to the plans and the requests. -/
structure WorkflowMove (s s' : WorkflowState) : Prop where
  plans : PlansStep (view s.runtime.db) (view s'.runtime.db)
  requests : ∀ ev ∈ requestsIn s.runtime.db.outbox, ev ∈ requestsIn s'.runtime.db.outbox
  inbox : ∀ x ∈ s.runtime.db.inbox, x ∈ s'.runtime.db.inbox

theorem workflow_move (hs : (workflows config).Reachable s)
    (h : (workflows config).step s a = some s') : WorkflowMove s s' := by
  have hcases := workflow_step_cases (workflow_owned hs) h
  exact ⟨(workflow_lineage hs).plansStep hcases, fun _ hev => replans_kept hcases hev,
    (workflow_step_records (workflow_owned hs) h).kept⟩

theorem Knows.workflow (h : Knows s.runtime.db d) (hmove : WorkflowMove s s') :
    Knows s'.runtime.db d where
  requested := hmove.requests _ h.requested
  seen := fun hd => hmove.inbox _ (h.seen hd)
  opened := fun planId hd => (h.opened planId hd).step hmove.plans
  done := fun hd => (h.done hd).step hmove.plans
  created := fun planId hd => (h.created planId hd).step hmove.plans

/-- A step that is not a preparation records no request. -/
theorem RecordsAnswered.workflow (hs : (workflows config).Reachable s)
    (hrec : RecordsAnswered s.runtime.db) (h : (workflows config).step s a = some s')
    (hnew : ∀ eventId, a.record = some ⟨replanConsumerName, eventId⟩ →
      ∃ ev ∈ requestsIn s'.runtime.db.outbox, ev.eventId = eventId ∧ Answered (view s'.runtime.db) ev) :
    RecordsAnswered s'.runtime.db := by
  intro eventId hin
  have hmove := workflow_move hs h
  rcases (workflow_step_records (workflow_owned hs) h).only _ hin with hin | hrecord
  · obtain ⟨ev, hev, hid, hanswered⟩ := hrec eventId hin
    exact ⟨ev, hmove.requests ev hev, hid, hanswered.step hmove.plans⟩
  · exact hnew eventId hrecord

theorem Knows.goto (h : Knows s.runtime.db d) {phase : ReplanPhase}
    (hseen : phase = .checked true → ReplanRecorded s.runtime.db d.event)
    (hopened : ∀ planId, phase.plan? = some planId → OpenedAs (view s.runtime.db) d.event planId)
    (hdone : phase.isDone = true → DealtWith (view s.runtime.db) d.event) :
    Knows s.runtime.db (d.goto phase) := ⟨h.requested, hseen, hopened, hdone, h.created⟩

/-- A step of a delivery that runs no transaction. -/
theorem DeliveryStep.knows (h : DeliveryStep s.runtime.db updatedAt d action none d')
    (hd : Knows s.runtime.db d) : Knows s.runtime.db d' := by
  cases h with
  | «over» => exact ⟨hd.requested, hd.seen, hd.opened, hd.done, hd.created⟩
  | checked harrived =>
    refine hd.goto (fun hphase => ?_) nofun nofun
    exact Db.inboxExists_iff.mp (ReplanPhase.checked.inj hphase)
  | went _ _ planId phase hplan hplan' hmarked =>
    refine hd.goto (fun hphase => ?_) (fun q hq => ?_) fun hdone => ?_
    · rw [hphase] at hplan'
      cases hplan'
    · rw [hplan'] at hq
      exact Option.some.inj hq ▸ hd.opened planId hplan
    · cases phase with
      | marked q => exact absurd (by rw [← Option.some.inj hplan']) hmarked
      | returned => cases hplan'
      | _ => cases hdone
  | settled planId reason result hphase hread hretry =>
    refine hd.goto nofun nofun fun _ => ?_
    obtain ⟨p, hp, hid, hrev⟩ := hd.opened planId (by rw [hphase]; rfl)
    obtain ⟨plan, turn, hget, -, -, -, rfl⟩ := readResult_eq_ok.mp hread
    obtain rfl : p = plan := OpenedAs.unique hp hid hget
    refine .inr ⟨p, hp, hrev, fun hst => ?_⟩
    rw [← Bool.not_eq_true, needsRetry_iff] at hretry
    exact hretry (.inl hst)
  | reread planId hphase =>
    exact hd.goto nofun nofun fun _ => hd.done (by rw [hphase]; rfl)

/-- A step of a delivery that runs a transaction. -/
theorem DeliveryStep.knows_committed (hs : (workflows config).Reachable s)
    (h : DeliveryStep s.runtime.db updatedAt d action (some a) d') (hd : Knows s.runtime.db d)
    (hrec : RecordsAnswered s.runtime.db)
    (hlease : ∀ newPlanId now, action = .prepare newPlanId now → d.phase = .checked true →
      LeaseOver updatedAt now d.event s.runtime.db)
    (hstep : (workflows config).step s a = some s') :
    Knows s'.runtime.db d' ∧ RecordsAnswered s'.runtime.db := by
  have hmove := workflow_move hs hstep
  have hkept := hd.workflow hmove
  have hother : isPrepareRevision a = false → RecordsAnswered s'.runtime.db := fun ha =>
    hrec.workflow hs hstep fun eventId hrecord => absurd hrecord (record_ne ha eventId)
  cases h with
  | «over» _ _ hprepare =>
    exact ⟨⟨hkept.requested, hkept.seen, hkept.opened, hkept.done, hkept.created⟩, hother hprepare⟩
  | refused newPlanId now seen failure hx =>
    have hdb : s'.runtime.db = s.runtime.db := by
      rw [prepare_db hd.requested hstep, hx]
      rfl
    rw [hdb]
    exact ⟨⟨hd.requested, hd.seen, hd.opened, hd.done, hd.created⟩, hrec⟩
  | prepared newPlanId now seen db' hphase hx =>
    have hleaves : Leaves (view s'.runtime.db) d.event
        (preparedPlan newPlanId now seen d.event updatedAt s.runtime.db) := by
      have hdb : s'.runtime.db = db' := by
        rw [prepare_db hd.requested hstep, hx]
        rfl
      rw [hdb]
      refine preparedPlan_leaves (fun hseen => ?_) (fun hseen => ?_) hx
      · exact hrec.answered hd.requested (hd.seen (hseen ▸ hphase))
      · exact hlease newPlanId now rfl (hseen ▸ hphase)
    refine ⟨⟨hkept.requested, fun hd' => ?_, fun q hq => ?_, fun hdone => ?_, fun q hq => ?_⟩, ?_⟩
    · cases hprep : preparedPlan newPlanId now seen d.event updatedAt s.runtime.db <;>
        rw [hprep] at hd' <;> cases hd'
    · cases hprep : preparedPlan newPlanId now seen d.event updatedAt s.runtime.db <;>
        rw [hprep] at hq hleaves <;> cases hq
      exact hleaves
    · cases hprep : preparedPlan newPlanId now seen d.event updatedAt s.runtime.db <;>
        rw [hprep] at hdone hleaves
      · exact hleaves
      · cases hdone
    · rw [createdPlan_prepared hq] at hleaves
      exact hleaves
    · refine hrec.workflow hs hstep fun eventId hrecord => ?_
      have hid : d.event.eventId = eventId := congrArg InboxEvent.eventId (Option.some.inj hrecord)
      exact ⟨d.event, hkept.requested, hid, hleaves.answered⟩
  | went _ _ planId phase hplan hplan' hmarked hprepare =>
    refine ⟨hkept.goto (fun hphase => ?_) (fun q hq => ?_) fun hdone => ?_, hother hprepare⟩
    · rw [hphase] at hplan'
      cases hplan'
    · rw [hplan'] at hq
      exact Option.some.inj hq ▸ hkept.opened planId hplan
    · cases phase with
      | marked q => exact absurd (by rw [← Option.some.inj hplan']) hmarked
      | returned => cases hplan'
      | _ => cases hdone
  | marked planId draw reason db' hphase hx =>
    have hopened := hkept.opened planId (by rw [hphase]; rfl)
    refine ⟨hkept.goto nofun (fun q hq => Option.some.inj hq ▸ hopened) fun _ => ?_, hother rfl⟩
    obtain ⟨p, hp, hid, hrev⟩ := hopened
    refine .inr ⟨p, hp, hrev, ?_⟩
    rw [mark_committed hstep hx] at hp
    obtain ⟨-, q, turn, outbox, hq, -, -, -, rfl⟩ := markPlanRetryPending_eq_ok.mp hx
    obtain ⟨hqm, hqid⟩ := Table.get?_eq_some.mp hq
    rw [plan_of_save (setPlanStatus .retryPending (some (PyString.strip reason.text))
      (some "planner_system_failure") q) hqm rfl hp (hid.trans hqid.symm)]
    nofun

end Step

/-! ## The invariant over a run -/

/-- No step answers a redelivery within the lease of the revision's planner run. -/
def OutsideLease (st : ReplanState) : ReplanAction → Prop
  | .handle index (.prepare _ now) => ∀ d ∈ st.deliveries[index]?, d.phase = .checked true →
      LeaseOver st.updatedAt now d.event st.db
  | _ => True

instance (st : ReplanState) (act : ReplanAction) : Decidable (OutsideLease st act) :=
  match act with
  | .handle index (.prepare _ now) =>
    inferInstanceAs (Decidable (∀ d ∈ st.deliveries[index]?, d.phase = .checked true →
      LeaseOver st.updatedAt now d.event st.db))
  | .handle _ .check | .handle _ .load | .handle _ .validate | .handle _ (.call _)
  | .handle _ (.endRun _) | .handle _ .question | .handle _ .read | .handle _ (.mark _)
  | .handle _ .reread | .handle _ .crash | .workflow _ | .publish _ | .markPublished _
  | .deliver _ _ | .ack _ => isTrue trivial

structure Handled (st : ReplanState) : Prop where
  streamed : ∀ m ∈ st.stream, m.event ∈ requestsIn st.db.outbox
  recorded : RecordsAnswered st.db
  knows : ∀ d ∈ st.deliveries, Knows st.db d
  messages : ∀ d ∈ st.deliveries, ∃ m, st.stream[d.message]? = some m ∧ m.event = d.event
  acked : ∀ m ∈ st.stream, m.acked = true → DealtWith (view st.db) m.event

section Runs

variable {config : RuntimeConfig} {st st' : ReplanState} {act : ReplanAction}

theorem DeliveryStep.same {db : Db} {updatedAt : UpdatedAt} {d d' : Delivery} {action : DeliveryAction}
    {a : Option WorkflowAction} (h : DeliveryStep db updatedAt d action a d') :
    d'.message = d.message ∧ d'.event = d.event := by
  cases h <;> exact ⟨rfl, rfl⟩

/-- A message that is rewritten keeps its event. -/
theorem messages_set {stream : List Message} {n : Nat} {m : Message} (m' : Message) (hn : stream[n]? = some m)
    (hsame : m'.event = m.event) {k : Nat} {ev : ReplanRequested}
    (h : ∃ x, stream[k]? = some x ∧ x.event = ev) :
    ∃ x, (stream.set n m')[k]? = some x ∧ x.event = ev := by
  obtain ⟨x, hx, rfl⟩ := h
  by_cases hk : n = k
  · subst hk
    obtain rfl := Option.some.inj (hn.symm.trans hx)
    exact ⟨m', by rw [List.getElem?_set_self (List.getElem?_eq_some_iff.mp hn).1], hsame⟩
  · exact ⟨x, by rw [List.getElem?_set_ne hk, hx], rfl⟩

/-- The rest of the workflow goes on. -/
theorem Handled.workflow {w : WorkflowState} (h : Handled st) (hmove : WorkflowMove st.workflow w)
    (hrec : RecordsAnswered w.runtime.db) : Handled { st with workflow := w } where
  streamed := fun m hm => hmove.requests _ (h.streamed m hm)
  recorded := hrec
  knows := fun d hd => (h.knows d hd).workflow hmove
  messages := h.messages
  acked := fun m hm hacked => (h.acked m hm hacked).step hmove.plans

/-- A delivery goes on. -/
theorem Handled.setDelivery {index : Nat} {now : Time} {d d' : Delivery} (h : Handled st)
    (hd : d ∈ st.deliveries) (hsame : d'.message = d.message ∧ d'.event = d.event)
    (hknows : Knows st.db d') : Handled (st.setDelivery index now d d' st.workflow) where
  streamed := h.streamed
  recorded := h.recorded
  knows := fun x hx => (List.mem_or_eq_of_mem_set hx).elim (h.knows x) fun heq => heq ▸ hknows
  messages := by
    intro x hx
    rcases List.mem_or_eq_of_mem_set hx with hx | rfl
    · exact h.messages x hx
    · rw [hsame.1, hsame.2]
      exact h.messages d hd
  acked := h.acked

theorem Handled.handOut {message : Nat} {m : Message} {now : Time} (h : Handled st)
    (hm : st.stream[message]? = some m) : Handled (st.handOut message m now) where
  streamed := fun x hx => (List.mem_or_eq_of_mem_set hx).elim (h.streamed x) fun heq =>
    heq ▸ h.streamed m (List.mem_of_getElem? hm)
  recorded := h.recorded
  knows := by
    intro d hd
    rcases List.mem_append.mp hd with hd | hd
    · exact h.knows d hd
    · obtain rfl := List.mem_singleton.mp hd
      exact ⟨h.streamed m (List.mem_of_getElem? hm), nofun, nofun, nofun, nofun⟩
  messages := by
    intro d hd
    refine messages_set { m with deliveredAt := some now } hm rfl ?_
    rcases List.mem_append.mp hd with hd | hd
    · exact h.messages d hd
    · obtain rfl := List.mem_singleton.mp hd
      exact ⟨m, hm, rfl⟩
  acked := by
    intro x hx hacked
    rcases List.mem_or_eq_of_mem_set hx with hx | rfl
    · exact h.acked x hx hacked
    · exact h.acked m (List.mem_of_getElem? hm) hacked

theorem Handled.acknowledge {index : Nat} {d : Delivery} {m : Message} (h : Handled st)
    (hd : d ∈ st.deliveries) (hm : st.stream[d.message]? = some m) (hreturned : d.phase = .returned) :
    Handled (st.acknowledge index d m) where
  streamed := fun x hx => (List.mem_or_eq_of_mem_set hx).elim (h.streamed x) fun heq =>
    heq ▸ h.streamed m (List.mem_of_getElem? hm)
  recorded := h.recorded
  knows := by
    intro x hx
    rcases List.mem_or_eq_of_mem_set hx with hx | rfl
    · exact h.knows x hx
    · have hk := h.knows d hd
      exact ⟨hk.requested, hk.seen, hk.opened, hk.done, hk.created⟩
  messages := by
    intro x hx
    refine messages_set { m with acked := true } hm rfl ?_
    rcases List.mem_or_eq_of_mem_set hx with hx | rfl
    · exact h.messages x hx
    · exact h.messages d hd
  acked := by
    intro x hx hacked
    rcases List.mem_or_eq_of_mem_set hx with hx | rfl
    · exact h.acked x hx hacked
    · -- the handler that has returned is the one of this message
      obtain ⟨m', hm', hevent⟩ := h.messages d hd
      obtain rfl := Option.some.inj (hm.symm.trans hm')
      show DealtWith (view st.db) m.event
      rw [hevent]
      exact (h.knows d hd).done (by rw [hreturned]; rfl)

/-- **The step.** -/
theorem Handled.step (hreach : (workflows config).Reachable st.workflow) (h : Handled st)
    (hok : OutsideLease st act) (hstep : (replanning config).step st act = some st') :
    Handled st' := by
  cases replanning_step_cases hstep with
  | worked a w ha hw =>
    refine h.workflow (workflow_move hreach hw) (h.recorded.workflow hreach hw fun eventId hrec => ?_)
    exact absurd hrec (record_ne ha eventId)
  | published eventId event hevent =>
    refine ⟨fun m hm => ?_, h.recorded, h.knows, fun d hd => ?_, fun m hm hacked => ?_⟩
    · rcases List.mem_append.mp hm with hm | hm
      · exact h.streamed m hm
      · obtain rfl := List.mem_singleton.mp hm
        exact mem_replans_of_request hevent
    · obtain ⟨m, hm, heq⟩ := h.messages d hd
      exact ⟨m, by rw [List.getElem?_append_left (List.getElem?_eq_some_iff.mp hm).1, hm], heq⟩
    · rcases List.mem_append.mp hm with hm | hm
      · exact h.acked m hm hacked
      · obtain rfl := List.mem_singleton.mp hm
        cases hacked
  | markedPublished => exact ⟨h.streamed, h.recorded, h.knows, h.messages, h.acked⟩
  | delivered message now m hm _ => exact h.handOut hm
  | moved index action now d d' hd _ hcases =>
    have hmem := List.mem_of_getElem? hd
    exact h.setDelivery hmem hcases.same (hcases.knows (h.knows d hmem))
  | committed index action now d d' a w hd _ hcases hw =>
    have hmem := List.mem_of_getElem? hd
    obtain ⟨hknows, hrec⟩ := hcases.knows_committed hreach (h.knows d hmem) h.recorded
      (by rintro newPlanId now rfl; exact hok d hd) hw
    exact (h.workflow (workflow_move hreach hw) hrec).setDelivery hmem hcases.same hknows
  | acked index d m hd hm _ hreturned => exact h.acknowledge (List.mem_of_getElem? hd) hm hreturned

theorem reachable_handled (h : (replanning config).ReachableVia OutsideLease st) : Handled st := by
  refine h.invariant (P := Handled) ?_ fun _ _ _ hr hh hok hs =>
    hh.step (replanning_workflow_reachable hr) hok hs
  rintro s ⟨hfresh, -, hstream, hdeliveries⟩
  obtain ⟨⟨-, -, -, -, -, hinbox, -⟩, -⟩ := hfresh
  refine ⟨by simp [hstream], fun eventId hin => ?_, by simp [hdeliveries], by simp [hdeliveries],
    by simp [hstream]⟩
  rw [Table.mem_iff, show s.db.inbox.rows = [] from hinbox] at hin
  cases hin

end Runs

/-! ## Stranded revisions -/

/-- The plan has been created for a request. -/
def CreatedByReplan (st : ReplanState) (p : Plan) : Prop :=
  ∃ d ∈ st.deliveries, d.created = some p.planId

/-- A handler is still there that runs the planner for the plan. -/
def RunAlive (st : ReplanState) (p : Plan) : Prop :=
  ∃ d ∈ st.deliveries, d.alive = true ∧ d.phase.plan? = some p.planId

/-- A request for the plan is not published yet, or one of its messages is not acknowledged. -/
def Outstanding (st : ReplanState) (p : Plan) : Prop :=
  ∃ ev ∈ requestsIn st.db.outbox, Revises ev p ∧
    (ev.eventId ∉ st.published ∨ ∃ m ∈ st.stream, m.event = ev ∧ m.acked = false)

instance (st : ReplanState) (p : Plan) : Decidable (CreatedByReplan st p) :=
  inferInstanceAs (Decidable (∃ d ∈ st.deliveries, d.created = some p.planId))

instance (st : ReplanState) (p : Plan) : Decidable (RunAlive st p) :=
  inferInstanceAs (Decidable (∃ d ∈ st.deliveries, d.alive = true ∧ d.phase.plan? = some p.planId))

instance (st : ReplanState) (p : Plan) : Decidable (Outstanding st p) :=
  inferInstanceAs (Decidable (∃ ev ∈ requestsIn st.db.outbox, Revises ev p ∧
    (ev.eventId ∉ st.published ∨ ∃ m ∈ st.stream, m.event = ev ∧ m.acked = false)))

/-- **A replanned revision is not stranded**: while it is being planned and nobody runs the planner,
a message for it is outstanding. -/
theorem replanned_not_stranded (config : RuntimeConfig) (st : ReplanState)
    (h : (replanning config).ReachableVia OutsideLease st) (p : Plan) (hp : p ∈ st.db.plans)
    (hcreated : CreatedByReplan st p) (hst : p.status = .planning) (hdead : ¬ RunAlive st p) :
    Outstanding st p := by
  have hhandled := reachable_handled h
  obtain ⟨d, hd, hplan⟩ := hcreated
  have hknows := hhandled.knows d hd
  obtain ⟨q, hq, hid, hrev⟩ := hknows.created _ hplan
  obtain rfl : q = p := Table.eq_of_key hq hp hid
  -- the message that the plan was created for
  obtain ⟨m, hm, hevent⟩ := hhandled.messages d hd
  have hmem := List.mem_of_getElem? hm
  refine ⟨d.event, hknows.requested, hrev, .inr ⟨m, hmem, hevent, ?_⟩⟩
  rw [← Bool.not_eq_true]
  intro hacked
  have hdealt := hhandled.acked m hmem hacked
  rw [hevent] at hdealt
  exact hdealt.not_planning (workflow_lineage (replanning_workflow_reachable h)) hq hrev hst

/-! ## A delivery within the lease -/

/-- No message has been sent yet. -/
def nothingRequested : ReplanState := ⟨nothingSent, fun _ => 0, [], [], [], 0⟩

/-- The first plan asks for a retry. -/
def retryFirst : List WorkflowAction :=
  sendFirstMessage ++ [.markPlanRetryPending 1 0 0 1 modelTimeout]

/-- The request is delivered, the second revision is created, and the worker is gone. -/
def crashInRun : List ReplanAction :=
  retryFirst.map .workflow ++ [.publish 1, .markPublished 1, .deliver 0 0, .handle 0 .check,
    .handle 0 (.prepare 2 0), .handle 0 .load, .handle 0 .validate, .handle 0 .crash]

/-- A minute later the message is delivered to another worker. -/
def redeliver : List ReplanAction :=
  [.deliver 0 (timedelta 60), .handle 1 .check, .handle 1 (.prepare 3 (timedelta 60)), .ack 1]

def ReplanState.afterAll (st : ReplanState) (as : List ReplanAction) : ReplanState :=
  ((replanning defaultConfig).run st as).getD st

def crashedInRun : ReplanState := nothingRequested.afterAll crashInRun

theorem nothingRequested_init : (replanning defaultConfig).init nothingRequested :=
  ⟨nothingSent_fresh, rfl, rfl, rfl⟩

/-- The lease is not over, so the redelivery is acknowledged, and nothing is left to run the
planner of the second revision. -/
theorem lease_strands :
    ∃ st : ReplanState, (replanning defaultConfig).Reachable st ∧ ∃ p ∈ st.db.plans,
      CreatedByReplan st p ∧ p.status = .planning ∧ ¬ RunAlive st p ∧ ¬ Outstanding st p := by
  have hrun : (replanning defaultConfig).run nothingRequested (crashInRun ++ redeliver) =
    some (crashedInRun.afterAll redeliver) := rfl
  exact ⟨_, Machine.Reachable.run (.init nothingRequested_init) hrun, _, .tail _ (.head _), by decide,
    rfl, by decide, by decide⟩

/-- Before that, the message is outstanding. -/
theorem replanned_not_stranded_crashed :
    ∃ p ∈ crashedInRun.db.plans, p.status = .planning ∧ Outstanding crashedInRun p := by
  have hrun : (replanning defaultConfig).RunVia OutsideLease nothingRequested crashInRun crashedInRun :=
    .of_runWhile rfl
  exact ⟨_, .tail _ (.head _), rfl, replanned_not_stranded defaultConfig crashedInRun
    (hrun.reachableVia (.init nothingRequested_init)) _ (.tail _ (.head _)) (by decide) rfl (by decide)⟩

end DocFlow.Workflow
