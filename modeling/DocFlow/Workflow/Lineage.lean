import DocFlow.Workflow.System

/-!
# The revisions of a workflow

A plan with revision 1 is created for a sent message; every later one answers a request of the
outbox, has the plan that asked as its parent, and supersedes it (`Origin`).  `PlansStep`
says what a step does to the plans, and `Lineage` is what follows over a whole run: the
plans of a workflow are a chain in which only the last one is not superseded.

The status of a plan moves along `Advance`.
-/

namespace DocFlow.Workflow

open Planning TaskRuntime

/-- The statuses after which a plan does not go on. -/
def isEnded : PlanStatus → Bool
  | .completed | .failed | .unsupported | .superseded | .cancelled => true
  | _ => false

/-- The plan has ended with all its tasks. -/
def isDead : PlanStatus → Bool
  | .superseded | .failed => true
  | _ => false

theorem isEnded_of_dead {status : PlanStatus} (h : isDead status = true) : isEnded status = true := by
  cases status <;> first | rfl | cases h

theorem of_isWorking {status : PlanStatus} (h : isWorking status = true) :
    status = .ready ∨ status = .running := by
  cases status <;> first | exact .inl rfl | exact .inr rfl | cases h

theorem isDead_of_working {status : PlanStatus} (h : isWorking status = true) :
    isDead status = false := by
  cases status <;> first | rfl | cases h

theorem isDead_of_worked {status : PlanStatus} (h : isWorked status = true) :
    isDead status = false := by
  cases status <;> first | rfl | cases h

/-! ## The statuses of a plan -/

/-- One step of the status of a plan: the planner ends its run, the runtime works, or a request
for a revision is answered. -/
inductive Advance : PlanStatus → PlanStatus → Prop
  | publish : Advance .planning .ready
  | unsupported : Advance .planning .unsupported
  | ask : Advance .planning .needsClarification
  | retry {status : PlanStatus} : status = .needsClarification ∨ status = .planning →
      Advance status .retryPending
  | work {status status' : PlanStatus} : isWorking status = true → isWorked status' = true →
      Advance status status'
  | supersede {status : PlanStatus} : isClosed status = true → status ≠ .failed →
      Advance status .superseded
  | exhaust {status : PlanStatus} : isClosed status = true → status ≠ .superseded →
      Advance status .failed

namespace Advance

variable {status status' : PlanStatus}

theorem closed (h : Advance status status') (hc : isClosed status = true) :
    isClosed status' = true := by
  cases h with
  | publish | unsupported | ask => cases hc
  | retry | supersede | exhaust => rfl
  | work hworking => rcases of_isWorking hworking with rfl | rfl <;> cases hc

theorem ended (h : Advance status status') (he : isEnded status = true) : status' = status := by
  cases h with
  | publish | unsupported | ask => cases he
  | retry hst => rcases hst with rfl | rfl <;> cases he
  | work hworking => rcases of_isWorking hworking with rfl | rfl <;> cases he
  | supersede hclosed hne =>
    revert hclosed hne he
    cases status <;> decide
  | exhaust hclosed hne =>
    revert hclosed hne he
    cases status <;> decide

theorem not_planning (h : Advance status status') : status' ≠ .planning := by
  rintro rfl
  cases h with
  | work _ hworked => cases hworked

end Advance

def workflowRevision (p : Plan) : WorkflowId × Nat := (p.workflowId, p.revision)

def turnRevision (p : Plan) : TurnId × Nat := (p.turnId, p.revision)

/-- Where a plan comes from. -/
inductive Origin (plans : Table Plan.planId) (p : Plan) : Prop
  | root : p.revision = 1 → p.parentPlanId = none → Origin plans p
  | revision (q : Plan) : q ∈ plans → q.status = .superseded → p.parentPlanId = some q.planId →
      q.workflowId = p.workflowId → q.turnId = p.turnId → p.revision = q.revision + 1 →
      Origin plans p

structure Lineage (v : View) : Prop where
  workflowUnique : ∀ p ∈ v.plans, ∀ q ∈ v.plans, workflowRevision p = workflowRevision q → p = q
  turnUnique : ∀ p ∈ v.plans, ∀ q ∈ v.plans, turnRevision p = turnRevision q → p = q
  bounded : ∀ p ∈ v.plans, 1 ≤ p.revision ∧ p.revision ≤ maxPlanRevisions
  origin : ∀ p ∈ v.plans, Origin v.plans p
  superseded : ∀ p ∈ v.plans, p.status = .superseded → p.revision < maxPlanRevisions
  failed : ∀ p ∈ v.plans, p.status = .failed → p.revision = maxPlanRevisions
  requested : ∀ ev ∈ v.replans, ∃ p ∈ v.plans, Asks p ev.payload ∧ isClosed p.status = true

/-! ## What a step does to the plans -/

/-- A row of a plan before and after a step. -/
structure PlanMove (p p' : Plan) : Prop where
  same : SamePlan p p'
  moved : p' = p ∨ Advance p.status p'.status
  superseded : p'.status = .superseded → p.status = .superseded ∨ p.revision < maxPlanRevisions
  failed : p'.status = .failed → p.status = .failed ∨ p.revision = maxPlanRevisions

/-- The plan that a step creates. -/
structure Created (v v' : View) (n : Plan) : Prop where
  mem : n ∈ v'.plans
  status : n.status = .planning
  bounded : 1 ≤ n.revision ∧ n.revision ≤ maxPlanRevisions
  workflowFree : ∀ q ∈ v.plans, workflowRevision q ≠ workflowRevision n
  turnFree : ∀ q ∈ v.plans, turnRevision q ≠ turnRevision n
  origin : Origin v'.plans n
  fresh : ∀ q ∈ v.plans, q.planId ≠ n.planId
  turn : (∃ turn ∈ v.turns, turn.turnId = n.turnId) ∨ ∃ q ∈ v.plans, q.turnId = n.turnId

structure PlansStep (v v' : View) : Prop where
  forth : ∀ p ∈ v.plans, ∃ p' ∈ v'.plans, PlanMove p p'
  back : (∀ p' ∈ v'.plans, ∃ p ∈ v.plans, PlanMove p p') ∨
    ∃ n, Created v v' n ∧ ∀ p' ∈ v'.plans, p' = n ∨ ∃ p ∈ v.plans, PlanMove p p'
  replans : ∀ ev ∈ v'.replans, ev ∈ v.replans ∨
    ∃ p ∈ v'.plans, Asks p ev.payload ∧ isClosed p.status = true

section Move

variable {p p' : Plan}

theorem PlanMove.refl (p : Plan) : PlanMove p p := ⟨.refl p, .inl rfl, .inl, .inl⟩

theorem PlanMove.closed (h : PlanMove p p') (hc : isClosed p.status = true) :
    isClosed p'.status = true := by
  rcases h.moved with rfl | hm
  · exact hc
  · exact hm.closed hc

theorem PlanMove.ended (h : PlanMove p p') (he : isEnded p.status = true) :
    p'.status = p.status := by
  rcases h.moved with rfl | hm
  · rfl
  · exact hm.ended he

/-- A plan moves to a status that is not dead. -/
theorem PlanMove.of_live (hsame : SamePlan p p') (hmoved : Advance p.status p'.status)
    (hlive : isDead p'.status = false) : PlanMove p p' := by
  refine ⟨hsame, .inr hmoved, fun h => ?_, fun h => ?_⟩
  · rw [h] at hlive
    cases hlive
  · rw [h] at hlive
    cases hlive

theorem PlanMove.of_work (h : PlanWork p p') : PlanMove p p' := by
  obtain ⟨hsame, rfl | ⟨hworking, hworked⟩⟩ := h
  · exact .refl _
  · exact .of_live hsame (.work hworking hworked) (isDead_of_worked hworked)

end Move

theorem PlansStep.of_corr {v v' : View} (hplans : Table.Corr PlanMove v.plans v'.plans)
    (hreplans : ∀ ev ∈ v'.replans, ev ∈ v.replans ∨
      ∃ p ∈ v'.plans, Asks p ev.payload ∧ isClosed p.status = true) : PlansStep v v' :=
  ⟨hplans.forth, .inl hplans.back, hreplans⟩

theorem PlansStep.of_same {v v' : View} (hplans : v'.plans = v.plans)
    (hreplans : v'.replans = v.replans) : PlansStep v v' :=
  .of_corr (.of_eq .refl hplans) fun _ hev => .inl (hreplans ▸ hev)

/-- One plan moves, and no revision is asked for. -/
theorem PlansStep.of_save {v v' : View} {p : Plan} (p' : Plan) (hp : p ∈ v.plans)
    (hmove : PlanMove p p') (hplans : v'.plans = v.plans.save p') (hreplans : v'.replans = v.replans) : PlansStep v v' := by
  refine .of_corr ?_ fun _ hev => .inl (hreplans ▸ hev)
  rw [hplans]
  exact .save .refl hp hmove.same.planId hmove

/-- A plan that asked for a revision gets one. -/
theorem Lineage.asked {v : View} (hv : Lineage v) {p : Plan} {ev : ReplanRequested} (hp : p ∈ v.plans)
    (hev : ev ∈ v.replans) (hprev : ev.payload.previousPlanId = p.planId) :
    Asks p ev.payload ∧ isClosed p.status = true := by
  obtain ⟨q, hq, hasks, hclosed⟩ := hv.requested ev hev
  obtain rfl : q = p := Table.eq_of_key hq hp (hasks.previousPlanId.symm.trans hprev)
  exact ⟨hasks, hclosed⟩

theorem Lineage.plansStep {retries : Option PlanId} {v v' : View} (hv : Lineage v) (h : WorkflowStep retries v v') : PlansStep v v' := by
  cases h with
  | quiet hv' => exact .of_same (by rw [hv']) (by rw [hv'])
  | turnCreated _ _ _ _ hv' => exact .of_same (by rw [hv']) (by rw [hv'])
  | turnRouted _ _ _ _ _ hv' => exact .of_same (by rw [hv']) (by rw [hv'])
  | taskCreated _ _ _ _ _ _ _ _ hv' => exact .of_same (by rw [hv']) (by rw [hv'])
  | questioned _ _ _ _ _ _ _ _ _ _ _ hv' => exact .of_same (by rw [hv']) (by rw [hv'])
  | turnCompleted _ _ _ _ _ _ _ _ _ _ hv' => exact .of_same (by rw [hv']) (by rw [hv'])
  | resolved _ _ _ _ _ _ _ _ hv' => exact .of_same (by rw [hv']) (by rw [hv'])
  | planCreated newPlanId newWorkflowId turn plans hturn hfree hfree' hplans hv' =>
    subst hv'
    refine ⟨fun p hp => ⟨p, (Table.mem_insert hplans).mpr (.inl hp), .refl p⟩, .inr ?_,
      fun _ hev => .inl hev⟩
    refine ⟨Db.draftPlan newPlanId newWorkflowId turn.turnId none 1, ?_, fun p' hp' => ?_⟩
    · refine ⟨(Table.mem_insert hplans).mpr (.inr rfl), rfl, ⟨le_rfl, (by decide : 1 ≤ 3)⟩, ?_, ?_,
        .root rfl rfl, fun q hq => Table.key_not_mem_of_insert hplans hq, .inl ⟨turn, hturn, rfl⟩⟩
      · exact fun q hq hk => hfree' q hq (Prod.mk.inj hk)
      · exact fun q hq hk => hfree q hq (Prod.mk.inj hk)
    · rcases (Table.mem_insert hplans).mp hp' with hp' | rfl
      · exact .inr ⟨p', hp', .refl p'⟩
      · exact .inl rfl
  | published p turn taskIds hp hst _ _ _ _ hv' =>
    subst hv'
    exact .of_save (publishPlan p) hp (.of_live ⟨rfl, rfl, rfl, rfl, rfl⟩
      (by rw [hst]; exact .publish) rfl) rfl rfl
  | worked hw =>
    refine .of_corr ⟨fun p hp => ?_, fun p' hp' => ?_⟩ fun ev hev => ?_
    · obtain ⟨p', hp', hwork⟩ := hw.plans.forth hp
      exact ⟨p', hp', .of_work hwork⟩
    · obtain ⟨p, hp, hwork⟩ := hw.plans.back hp'
      exact ⟨p, hp, .of_work hwork⟩
    · rcases hw.replans with hsame | ⟨p, hp, p', hp', ev', hid, -, hst', hreplans, hasks⟩
      · exact .inl (hsame ▸ hev)
      · rw [hreplans, List.mem_append, List.mem_singleton] at hev
        refine hev.imp_right fun heq => ⟨p', hp', ?_, by rw [hst']; rfl⟩
        obtain ⟨q, hq, hwork⟩ := hw.plans.back hp'
        obtain rfl : q = p := Table.eq_of_key hq hp (hwork.same.planId.symm.trans hid)
        rw [heq]
        exact ⟨hasks.previousPlanId.trans hwork.same.planId.symm,
          hasks.workflowId.trans hwork.same.workflowId.symm,
          hasks.rootTurnId.trans hwork.same.turnId.symm,
          hasks.nextRevision.trans (by rw [hwork.same.revision])⟩
  | revised p ev newPlanId now plans hp hev hprev hmax hfree hfree' hplans hv' =>
    subst hv'
    obtain ⟨hasks, hclosed⟩ := hv.asked hp hev hprev
    have hlt : p.revision < maxPlanRevisions := by
      rw [hasks.nextRevision] at hmax
      exact hmax
    have hmove : PlanMove p (supersedePlan now p) := by
      refine ⟨⟨rfl, rfl, rfl, rfl, rfl⟩, .inr (.supersede hclosed fun hst => ?_), fun _ => .inr hlt,
        nofun⟩
      exact absurd (hv.failed p hp hst) (Nat.ne_of_lt hlt)
    have hsaved : supersedePlan now p ∈ plans := by
      refine (Table.mem_insert hplans).mpr (.inl ?_)
      exact (Table.mem_save_of_mem (r := supersedePlan now p) hp rfl).mpr (.inl rfl)
    have hcorr : Table.Corr PlanMove v.plans (v.plans.save (supersedePlan now p)) :=
      .save .refl hp rfl hmove
    refine ⟨fun q hq => ?_, .inr ?_, fun _ hev => .inl hev⟩
    · obtain ⟨q', hq', hqm⟩ := hcorr.forth q hq
      exact ⟨q', (Table.mem_insert hplans).mpr (.inl hq'), hqm⟩
    · refine ⟨Db.draftPlan newPlanId ev.payload.workflowId ev.payload.rootTurnId
        (some ev.payload.previousPlanId) ev.payload.nextRevision, ?_, fun q' hq' => ?_⟩
      · refine ⟨(Table.mem_insert hplans).mpr (.inr rfl), rfl, ⟨?_, hmax⟩, ?_, ?_, ?_, ?_,
          .inr ⟨p, hp, hasks.rootTurnId.symm⟩⟩
        · show 1 ≤ ev.payload.nextRevision
          rw [hasks.nextRevision]
          exact Nat.le_add_left 1 p.revision
        · exact fun q hq hk => hfree' q hq (Prod.mk.inj hk)
        · exact fun q hq hk => hfree q hq (Prod.mk.inj hk)
        · exact .revision (supersedePlan now p) hsaved rfl (by rw [hprev]; rfl)
            hasks.workflowId.symm hasks.rootTurnId.symm hasks.nextRevision
        · intro q hq
          obtain ⟨q', hq', hqm⟩ := hcorr.forth q hq
          rw [← hqm.same.planId]
          exact Table.key_not_mem_of_insert hplans hq'
      · rcases (Table.mem_insert hplans).mp hq' with hq' | rfl
        · exact .inr (hcorr.back q' hq')
        · exact .inl rfl
  | exhausted p ev turn now hp hev hprev hmax _ _ hv' =>
    subst hv'
    obtain ⟨hasks, hclosed⟩ := hv.asked hp hev hprev
    have hlast : p.revision = maxPlanRevisions := by
      rw [hasks.nextRevision] at hmax
      exact Nat.le_antisymm (hv.bounded p hp).2 (Nat.lt_succ_iff.mp hmax)
    refine .of_save (exhaustPlan now p) hp ?_ rfl rfl
    refine ⟨⟨rfl, rfl, rfl, rfl, rfl⟩, .inr (.exhaust hclosed fun hst => ?_), nofun,
      fun _ => .inr hlast⟩
    exact absurd hlast (Nat.ne_of_lt (hv.superseded p hp hst))
  | unsupported p reason hp hst hv' =>
    subst hv'
    exact .of_save (setPlanStatus .unsupported (some reason) (some "unsupported") p) hp
      (.of_live ⟨rfl, rfl, rfl, rfl, rfl⟩ (by rw [hst]; exact .unsupported) rfl) rfl rfl
  | retried p turn reason requests ev _ hp hst _ _ _ hasks hv' =>
    subst hv'
    have hmove : PlanMove p
        (setPlanStatus .retryPending (some reason) (some "planner_system_failure") p) :=
      ⟨⟨rfl, rfl, rfl, rfl, rfl⟩, .inr (.retry hst), nofun, nofun⟩
    refine .of_corr (.save .refl hp rfl hmove) fun ev' hev' => ?_
    rw [List.mem_append, List.mem_singleton] at hev'
    refine hev'.imp_right fun heq => ⟨setPlanStatus .retryPending (some reason)
      (some "planner_system_failure") p, ?_, ?_, rfl⟩
    · exact (Table.mem_save_of_mem (r := setPlanStatus .retryPending (some reason)
        (some "planner_system_failure") p) hp rfl).mpr (.inl rfl)
    · rw [heq]
      exact ⟨hasks.previousPlanId, hasks.workflowId, hasks.rootTurnId, hasks.nextRevision⟩
  | asked p turn newClarificationId command requests hp hst _ _ _ _ _ hv' =>
    subst hv'
    exact .of_save (setPlanStatus .needsClarification (some command.reason.text)
      (some "clarification_required") p) hp
      (.of_live ⟨rfl, rfl, rfl, rfl, rfl⟩ (by rw [hst]; exact .ask) rfl) rfl rfl
  | answered p r turn answer ev hp hst _ _ _ _ _ _ _ hasks hv' =>
    subst hv'
    refine .of_corr (.of_eq .refl rfl) fun ev' hev' => ?_
    rw [List.mem_append, List.mem_singleton] at hev'
    exact hev'.imp_right fun heq => ⟨p, hp, by rw [heq]; exact hasks, by rw [hst]; rfl⟩

/-! ## The chain -/

/-- Keys that the plans keep stay different. -/
theorem PlansStep.unique {κ : Type} {v v' : View} (h : PlansStep v v') {key : Plan → κ}
    (hkey : ∀ p p', SamePlan p p' → key p' = key p)
    (hfree : ∀ n, Created v v' n → ∀ q ∈ v.plans, key q ≠ key n)
    (hold : ∀ p ∈ v.plans, ∀ q ∈ v.plans, key p = key q → p = q) :
    ∀ p ∈ v'.plans, ∀ q ∈ v'.plans, key p = key q → p = q := by
  have hmoved : ∀ p' ∈ v'.plans, ∀ q' ∈ v'.plans, ∀ p ∈ v.plans, ∀ q ∈ v.plans, PlanMove p p' →
      PlanMove q q' → key p' = key q' → p' = q' := by
    intro p' hp' q' hq' p hp q hq hpm hqm hk
    rw [hkey _ _ hpm.same, hkey _ _ hqm.same] at hk
    obtain rfl := hold p hp q hq hk
    exact Table.eq_of_key hp' hq' (hpm.same.planId.trans hqm.same.planId.symm)
  intro p' hp' q' hq' hk
  rcases h.back with hback | ⟨n, hn, hback⟩
  · obtain ⟨p, hp, hpm⟩ := hback p' hp'
    obtain ⟨q, hq, hqm⟩ := hback q' hq'
    exact hmoved p' hp' q' hq' p hp q hq hpm hqm hk
  · rcases hback p' hp' with rfl | ⟨p, hp, hpm⟩ <;> rcases hback q' hq' with rfl | ⟨q, hq, hqm⟩
    · rfl
    · exact absurd ((hkey _ _ hqm.same).symm.trans hk.symm) (hfree p' hn q hq)
    · exact absurd ((hkey _ _ hpm.same).symm.trans hk) (hfree q' hn p hp)
    · exact hmoved p' hp' q' hq' p hp q hq hpm hqm hk

/-- What holds of every plan that moves and of the one that is created. -/
theorem PlansStep.all {v v' : View} (h : PlansStep v v') {P : Plan → Prop}
    (hmove : ∀ p ∈ v.plans, ∀ p' ∈ v'.plans, PlanMove p p' → P p')
    (hcreated : ∀ n, Created v v' n → P n) : ∀ p' ∈ v'.plans, P p' := by
  intro p' hp'
  rcases h.back with hback | ⟨n, hn, hback⟩
  · obtain ⟨p, hp, hpm⟩ := hback p' hp'
    exact hmove p hp p' hp' hpm
  · rcases hback p' hp' with rfl | ⟨p, hp, hpm⟩
    · exact hcreated p' hn
    · exact hmove p hp p' hp' hpm

theorem PlansStep.lineage {v v' : View} (hv : Lineage v) (h : PlansStep v v') : Lineage v' where
  workflowUnique := by
    refine h.unique (fun p p' hs => ?_) (fun n hn => hn.workflowFree) hv.workflowUnique
    rw [workflowRevision, hs.workflowId, hs.revision, workflowRevision]
  turnUnique := by
    refine h.unique (fun p p' hs => ?_) (fun n hn => hn.turnFree) hv.turnUnique
    rw [turnRevision, hs.turnId, hs.revision, turnRevision]
  bounded := by
    refine h.all (fun p hp p' _ hm => ?_) fun n hn => hn.bounded
    rw [hm.same.revision]
    exact hv.bounded p hp
  origin := by
    refine h.all (fun p hp p' _ hm => ?_) fun n hn => hn.origin
    cases hv.origin p hp with
    | root hrev hparent => exact .root (hm.same.revision.trans hrev) (hm.same.parentPlanId.trans hparent)
    | revision q hq hst hparent hw ht hrev =>
      obtain ⟨q', hq', hqm⟩ := h.forth q hq
      refine .revision q' hq' ?_ ?_ ?_ ?_ ?_
      · rw [hqm.ended (by rw [hst]; rfl), hst]
      · rw [hm.same.parentPlanId, hparent, hqm.same.planId]
      · rw [hqm.same.workflowId, hw, hm.same.workflowId]
      · rw [hqm.same.turnId, ht, hm.same.turnId]
      · rw [hm.same.revision, hrev, hqm.same.revision]
  superseded := by
    refine h.all (fun p hp p' _ hm hst => ?_) fun n hn hst => ?_
    · rw [hm.same.revision]
      exact (hm.superseded hst).elim (hv.superseded p hp) id
    · rw [hn.status] at hst
      cases hst
  failed := by
    refine h.all (fun p hp p' _ hm hst => ?_) fun n hn hst => ?_
    · rw [hm.same.revision]
      exact (hm.failed hst).elim (hv.failed p hp) id
    · rw [hn.status] at hst
      cases hst
  requested := by
    intro ev hev
    rcases h.replans ev hev with hold | hnew
    · obtain ⟨p, hp, hasks, hclosed⟩ := hv.requested ev hold
      obtain ⟨p', hp', hm⟩ := h.forth p hp
      refine ⟨p', hp', ⟨?_, ?_, ?_, ?_⟩, hm.closed hclosed⟩
      · rw [hasks.previousPlanId, hm.same.planId]
      · rw [hasks.workflowId, hm.same.workflowId]
      · rw [hasks.rootTurnId, hm.same.turnId]
      · rw [hasks.nextRevision, hm.same.revision]
    · exact hnew

theorem View.Blank.lineage {v : View} (h : v.Blank) : Lineage v := by
  obtain ⟨-, hp, -, -, hr⟩ := h
  constructor <;> simp [Table.mem_iff, hp, hr]

section Reachable

variable {config : RuntimeConfig} {s : WorkflowState}

theorem workflow_lineage {ok : WorkflowState → WorkflowAction → Prop}
    (h : (workflows config).ReachableVia ok s) : Lineage (view s.runtime.db) :=
  view_invariant (fun _ hb => hb.lineage) (fun _ _ _ _ hv hstep => (hv.plansStep hstep).lineage hv) h

end Reachable

/-- **Below a revision** there is every earlier one, and it is superseded. -/
theorem Lineage.below {v : View} (hv : Lineage v) {p : Plan} (hp : p ∈ v.plans) {k : Nat}
    (hk : 1 ≤ k) (hlt : k < p.revision) :
    ∃ q ∈ v.plans, q.workflowId = p.workflowId ∧ q.turnId = p.turnId ∧ q.revision = k ∧
      q.status = .superseded := by
  induction hn : p.revision generalizing p with
  | zero => omega
  | succ n ih =>
    cases hv.origin p hp with
    | root hrev _ => omega
    | revision q hq hst _ hw ht hrev =>
      by_cases hqk : q.revision = k
      · exact ⟨q, hq, hw, ht, hqk, hst⟩
      · obtain ⟨x, hx, hxw, hxt, hxk, hxst⟩ := ih hq (by omega) (by omega)
        exact ⟨x, hx, hxw.trans hw, hxt.trans ht, hxk, hxst⟩

theorem Lineage.superseded_of_lt {v : View} (hv : Lineage v) {p q : Plan} (hp : p ∈ v.plans)
    (hq : q ∈ v.plans) (hw : p.workflowId = q.workflowId) (hlt : p.revision < q.revision) :
    p.status = .superseded := by
  obtain ⟨x, hx, hxw, -, hxk, hst⟩ := hv.below hq (hv.bounded p hp).1 hlt
  obtain rfl : x = p := by
    refine hv.workflowUnique x hx p hp ?_
    rw [workflowRevision, hxw, hxk, ← hw, workflowRevision]
  exact hst

/-- Plans of one turn belong to one workflow. -/
theorem Lineage.workflow_of_turn {v : View} (hv : Lineage v) {p q : Plan} (hp : p ∈ v.plans)
    (hq : q ∈ v.plans) (ht : p.turnId = q.turnId) : p.workflowId = q.workflowId := by
  have hle : ∀ p ∈ v.plans, ∀ q ∈ v.plans, p.turnId = q.turnId → p.revision ≤ q.revision →
      p.workflowId = q.workflowId := by
    intro p hp q hq ht hle
    rcases Nat.lt_or_eq_of_le hle with hlt | heq
    · obtain ⟨x, hx, hxw, hxt, hxk, -⟩ := hv.below hq (hv.bounded p hp).1 hlt
      obtain rfl : x = p := hv.turnUnique x hx p hp (by rw [turnRevision, hxt, hxk, ← ht, turnRevision])
      exact hxw
    · obtain rfl := hv.turnUnique p hp q hq (by rw [turnRevision, ht, heq, turnRevision])
      rfl
  rcases Nat.le_total p.revision q.revision with h | h
  · exact hle p hp q hq ht h
  · exact (hle q hq p hp ht.symm h).symm

theorem Lineage.parent {v : View} (hv : Lineage v) {p q : Plan} (hp : p ∈ v.plans)
    (hq : q ∈ v.plans) (hw : q.workflowId = p.workflowId) (hrev : q.revision = p.revision + 1) :
    q.parentPlanId = some p.planId := by
  cases hv.origin q hq with
  | root hroot _ =>
    have hpos := (hv.bounded p hp).1
    omega
  | revision x hx _ hparent hxw _ hxrev =>
    obtain rfl : x = p := by
      refine hv.workflowUnique x hx p hp ?_
      rw [workflowRevision, hxw, hw, workflowRevision, Nat.succ.inj (hxrev.symm.trans hrev)]
    exact hparent

/-- Two plans of a turn that are not superseded are one. -/
theorem Lineage.eq_of_turn {v : View} (hl : Lineage v) {p q : Plan} (hp : p ∈ v.plans)
    (hq : q ∈ v.plans) (ht : p.turnId = q.turnId) (hpst : p.status ≠ .superseded)
    (hqst : q.status ≠ .superseded) : p = q := by
  have hw := hl.workflow_of_turn hp hq ht
  rcases Nat.lt_trichotomy p.revision q.revision with hlt | heq | hlt
  · exact absurd (hl.superseded_of_lt hp hq hw hlt) hpst
  · exact hl.turnUnique p hp q hq (by rw [turnRevision, ht, heq, turnRevision])
  · exact absurd (hl.superseded_of_lt hq hp hw.symm hlt) hqst

end DocFlow.Workflow
