import DocFlow.Workflow.Lineage

/-!
# Clarifications along a workflow

A plan asks its turn at most once, the user answers at most once, and a plan whose question is open
waits (`Clarified`).  `RequestsStep` and `ReplansStep` say what a step does to the requests
and to the events that ask for a revision.

An answer leaves the plan as it is, so a planner that has not yet seen it may still mark the
plan for a retry: the answered request expires and a second event is made.  Runs
without such a mark (`KeepsAnswers`) make one event for each plan and keep every answer.
-/

namespace DocFlow.Workflow

open Planning TaskRuntime

/-! ## What a step does to the requests -/

/-- The columns of a request that are written once. -/
structure SameRequest (r r' : ClarificationRequest) : Prop where
  clarificationId : r'.clarificationId = r.clarificationId
  sourcePlanId : r'.sourcePlanId = r.sourcePlanId
  sourceTurnId : r'.sourceTurnId = r.sourceTurnId

/-- A row of a request before and after a step. -/
inductive RequestMove (retries : Option PlanId) (v v' : View) (r : ClarificationRequest) :
    ClarificationRequest → Prop
  | kept : RequestMove retries v v' r r
  | questioned (question : String) (p : Plan) (turn : ConversationTurn) : p ∈ v.plans →
      r.sourcePlanId = p.planId → turn ∈ v.turns → turn.turnId = p.turnId →
      turn.status = .needsClarification → RequestMove retries v v' r (askedRequest question r)
  | answered (answerTurnId : TurnId) : r.status = .opened →
      (∀ turn' ∈ v'.turns, turn'.turnId = r.sourceTurnId → turn'.status ≠ .needsClarification) →
      RequestMove retries v v' r (answeredRequest answerTurnId r)
  | expired (now : Time) (p : Plan) : p ∈ v.plans → r.sourcePlanId = p.planId →
      retries = some p.planId → p.status = .needsClarification ∨ p.status = .planning →
      (∀ p' ∈ v'.plans, p'.planId = p.planId → p'.status = .retryPending) →
      RequestMove retries v v' r (expireRequest now r)
  | resolved (now : Time) (p : Plan) : p ∈ v.plans → p ∈ v'.plans → p.status = .completed →
      p.parentPlanId = some r.sourcePlanId → r.status = .answered →
      RequestMove retries v v' r (Aggregation.resolveRequest now r)

/-- The request that a step opens. -/
structure Opened (v v' : View) (n : ClarificationRequest) : Prop where
  status : n.status = .opened
  answerTurnId : n.answerTurnId = none
  turnFree : ∀ r ∈ v.clarifications, r.sourceTurnId ≠ n.sourceTurnId
  replans : v'.replans = v.replans
  source : ∃ p ∈ v.plans, p.status = .planning ∧ n.sourcePlanId = p.planId ∧
    n.sourceTurnId = p.turnId ∧ ∃ p' ∈ v'.plans, SamePlan p p' ∧ p'.status = .needsClarification

structure RequestsStep (retries : Option PlanId) (v v' : View) : Prop where
  forth : ∀ r ∈ v.clarifications, ∃ r' ∈ v'.clarifications, RequestMove retries v v' r r'
  back : (∀ r' ∈ v'.clarifications, ∃ r ∈ v.clarifications, RequestMove retries v v' r r') ∨
    ∃ n, Opened v v' n ∧
      ∀ r' ∈ v'.clarifications, r' = n ∨ ∃ r ∈ v.clarifications, RequestMove retries v v' r r'

theorem RequestMove.same {retries : Option PlanId} {v v' : View} {r r' : ClarificationRequest}
    (h : RequestMove retries v v' r r') : SameRequest r r' := by
  cases h <;> exact ⟨rfl, rfl, rfl⟩

theorem RequestsStep.of_corr {retries : Option PlanId} {v v' : View}
    (h : Table.Corr (RequestMove retries v v') v.clarifications v'.clarifications) :
    RequestsStep retries v v' := ⟨h.forth, .inl h.back⟩

theorem RequestsStep.of_same {retries : Option PlanId} {v v' : View}
    (h : v'.clarifications = v.clarifications) : RequestsStep retries v v' :=
  .of_corr (.of_eq (fun _ => .kept) h)

/-- The turn of a saved row has that row's status. -/
theorem turn_of_save {turns : Table ConversationTurn.turnId} {turn x : ConversationTurn}
    (saved : ConversationTurn) (hturn : turn ∈ turns) (hid : saved.turnId = turn.turnId) (hx : x ∈ turns.save saved)
    (hxid : x.turnId = turn.turnId) : x = saved := by
  rcases (Table.mem_save_of_mem hturn hid).mp hx with rfl | ⟨hx, hne⟩
  · rfl
  · exact absurd (Table.eq_of_key hx hturn hxid) hne

theorem plan_of_save {plans : Table Plan.planId} {p x : Plan} (saved : Plan) (hp : p ∈ plans)
    (hid : saved.planId = p.planId) (hx : x ∈ plans.save saved) (hxid : x.planId = p.planId) :
    x = saved := by
  rcases (Table.mem_save_of_mem hp hid).mp hx with rfl | ⟨hx, hne⟩
  · rfl
  · exact absurd (Table.eq_of_key hx hp hxid) hne

theorem requestsStep {retries : Option PlanId} {v v' : View} (h : WorkflowStep retries v v') :
    RequestsStep retries v v' := by
  cases h with
  | asked p turn newClarificationId command requests hp hst _ _ _ hfree hrequests hv' =>
    subst hv'
    refine ⟨fun r hr => ⟨r, (Table.mem_insert hrequests).mpr (.inl hr), .kept⟩, .inr ?_⟩
    refine ⟨openRequest newClarificationId command p, ⟨rfl, rfl, hfree, rfl, ?_⟩, fun r' hr' => ?_⟩
    · refine ⟨p, hp, hst, rfl, rfl, setPlanStatus .needsClarification (some command.reason.text)
        (some "clarification_required") p, ?_, ⟨rfl, rfl, rfl, rfl, rfl⟩, rfl⟩
      exact (Table.mem_save_of_mem (r := setPlanStatus .needsClarification
        (some command.reason.text) (some "clarification_required") p) hp rfl).mpr (.inl rfl)
    · rcases (Table.mem_insert hrequests).mp hr' with hr' | rfl
      · exact .inr ⟨r', hr', .kept⟩
      · exact .inl rfl
  | questioned p r turn question hp _ hr hrp hturn hturnId hturnSt hv' =>
    subst hv'
    exact .of_corr (.save (fun _ => .kept) hr rfl
      (.questioned question p turn hp hrp hturn hturnId hturnSt))
  | answered p r turn answer ev _ _ hr _ hrt hopen hturn hturnId _ _ hv' =>
    subst hv'
    refine .of_corr (.save (fun _ => .kept) hr rfl (.answered p.turnId hopen fun x hx hxid => ?_))
    rw [turn_of_save (answeredTurn answer turn) hturn rfl hx
      (hxid.trans (hrt.trans hturnId.symm))]
    nofun
  | retried p turn reason requests ev hretries hp hst _ _ hexpires _ hv' =>
    subst hv'
    refine .of_corr ?_
    cases hexpires with
    | none _ hsame => exact .of_eq (fun _ => .kept) hsame
    | some r now hr hrp hsame =>
      subst hsame
      refine .save (fun _ => .kept) hr rfl (.expired now p hp hrp hretries hst fun x hx hxid => ?_)
      rw [plan_of_save (setPlanStatus .retryPending (some reason)
        (some "planner_system_failure") p) hp rfl hx hxid]
      rfl
  | resolved p r now hp hst hparent hr hanswered hv' =>
    subst hv'
    exact .of_corr (.save (fun _ => .kept) hr rfl (.resolved now p hp hp hst hparent hanswered))
  | worked hw => exact .of_same hw.clarifications
  | quiet hv' => exact .of_same (by rw [hv'])
  | turnCreated _ _ _ _ hv' => exact .of_same (by rw [hv'])
  | turnRouted _ _ _ _ _ hv' => exact .of_same (by rw [hv'])
  | planCreated _ _ _ _ _ _ _ _ hv' => exact .of_same (by rw [hv'])
  | taskCreated _ _ _ _ _ _ _ _ hv' => exact .of_same (by rw [hv'])
  | published _ _ _ _ _ _ _ _ _ hv' => exact .of_same (by rw [hv'])
  | revised _ _ _ _ _ _ _ _ _ _ _ _ hv' => exact .of_same (by rw [hv'])
  | exhausted _ _ _ _ _ _ _ _ _ _ hv' => exact .of_same (by rw [hv'])
  | unsupported _ _ _ _ hv' => exact .of_same (by rw [hv'])
  | turnCompleted _ _ _ _ _ _ _ _ _ _ hv' => exact .of_same (by rw [hv'])

/-! ## What a step does to the events that ask for a revision -/

inductive ReplansStep (retries : Option PlanId) (v v' : View) : Prop
  | same : v'.replans = v.replans → ReplansStep retries v v'
  | failed (p : Plan) (ev : ReplanRequested) : p ∈ v.plans → p.status = .running →
      Asks p ev.payload → v'.replans = v.replans ++ [ev] → ReplansStep retries v v'
  | retried (p : Plan) (ev : ReplanRequested) : p ∈ v.plans → retries = some p.planId →
      p.status = .needsClarification ∨ p.status = .planning → Asks p ev.payload →
      v'.replans = v.replans ++ [ev] → Expires p.planId v.clarifications v'.clarifications →
      (∀ p' ∈ v'.plans, p'.planId = p.planId → p'.status = .retryPending) →
      ReplansStep retries v v'
  | answered (p : Plan) (r : ClarificationRequest) (ev : ReplanRequested) : p ∈ v.plans →
      p.status = .needsClarification → r ∈ v.clarifications → r.sourcePlanId = p.planId →
      r.status = .opened → Asks p ev.payload → v'.replans = v.replans ++ [ev] →
      v'.clarifications = v.clarifications.save (answeredRequest p.turnId r) →
      ReplansStep retries v v'

theorem replansStep {retries : Option PlanId} {v v' : View} (h : WorkflowStep retries v v') :
    ReplansStep retries v v' := by
  cases h with
  | worked hw =>
    rcases hw.replans with hsame | ⟨p, hp, p', -, ev, -, hst, -, hreplans, hasks⟩
    · exact .same hsame
    · exact .failed p ev hp hst hasks hreplans
  | retried p turn reason requests ev hretries hp hst _ _ hexpires hasks hv' =>
    subst hv'
    refine .retried p ev hp hretries hst hasks rfl hexpires fun x hx hxid => ?_
    rw [plan_of_save (setPlanStatus .retryPending (some reason)
      (some "planner_system_failure") p) hp rfl hx hxid]
    rfl
  | answered p r turn answer ev hp hst hr hrp _ hopen _ _ _ hasks hv' =>
    subst hv'
    exact .answered p r ev hp hst hr hrp hopen hasks rfl rfl
  | quiet hv' => exact .same (by rw [hv'])
  | turnCreated _ _ _ _ hv' => exact .same (by rw [hv'])
  | turnRouted _ _ _ _ _ hv' => exact .same (by rw [hv'])
  | planCreated _ _ _ _ _ _ _ _ hv' => exact .same (by rw [hv'])
  | taskCreated _ _ _ _ _ _ _ _ hv' => exact .same (by rw [hv'])
  | published _ _ _ _ _ _ _ _ _ hv' => exact .same (by rw [hv'])
  | revised _ _ _ _ _ _ _ _ _ _ _ _ hv' => exact .same (by rw [hv'])
  | exhausted _ _ _ _ _ _ _ _ _ _ hv' => exact .same (by rw [hv'])
  | unsupported _ _ _ _ hv' => exact .same (by rw [hv'])
  | asked _ _ _ _ _ _ _ _ _ _ _ _ hv' => exact .same (by rw [hv'])
  | questioned _ _ _ _ _ _ _ _ _ _ _ hv' => exact .same (by rw [hv'])
  | turnCompleted _ _ _ _ _ _ _ _ _ _ hv' => exact .same (by rw [hv'])
  | resolved _ _ _ _ _ _ _ _ hv' => exact .same (by rw [hv'])

/-! ## Plans and turns that wait -/

/-- A turn waits after a step when it did before, or when it has just been asked. -/
theorem waitingTurn_step {retries : Option PlanId} {v v' : View} (h : WorkflowStep retries v v')
    {turn' : ConversationTurn} (hturn' : turn' ∈ v'.turns)
    (hwait : turn'.status = .needsClarification) :
    (∃ turn ∈ v.turns, turn.turnId = turn'.turnId ∧ turn.status = .needsClarification) ∨
      ∀ r ∈ v'.clarifications, r.sourceTurnId = turn'.turnId → r.status = .opened := by
  -- a saved turn that does not wait leaves the waiting ones
  have hsaved : ∀ turn ∈ v.turns, ∀ saved : ConversationTurn, saved.turnId = turn.turnId →
      saved.status ≠ .needsClarification → turn' ∈ v.turns.save saved → turn' ∈ v.turns := by
    intro turn hturn saved hid hst hx
    rcases (Table.mem_save_of_mem hturn hid).mp hx with rfl | ⟨hx, -⟩
    · exact absurd hwait hst
    · exact hx
  have hold : turn' ∈ v.turns →
      (∃ turn ∈ v.turns, turn.turnId = turn'.turnId ∧ turn.status = .needsClarification) ∨
        ∀ r ∈ v'.clarifications, r.sourceTurnId = turn'.turnId → r.status = .opened :=
    fun hx => .inl ⟨turn', hx, rfl, hwait⟩
  cases h with
  | turnCreated turn turns hst hturns hv' =>
    subst hv'
    rcases (Table.mem_insert hturns).mp hturn' with hx | rfl
    · exact hold hx
    · rw [hst] at hwait
      cases hwait
  | turnRouted turn status hturn _ hstatus hv' =>
    subst hv'
    refine hold (hsaved turn hturn (withTurnStatus status turn) rfl ?_ hturn')
    rcases hstatus with rfl | rfl <;> nofun
  | published p turn taskIds _ _ hturn _ _ _ hv' =>
    subst hv'
    exact hold (hsaved turn hturn { turn with taskIds := taskIds, status := .processing } rfl nofun
      hturn')
  | exhausted _ _ turn _ _ _ _ _ hturn _ hv' =>
    subst hv'
    exact hold (hsaved turn hturn (withTurnStatus .failed turn) rfl nofun hturn')
  | retried _ turn _ _ _ _ _ _ hturn _ _ _ hv' =>
    subst hv'
    exact hold (hsaved turn hturn (withTurnStatus .processing turn) rfl nofun hturn')
  | asked p turn newClarificationId command requests hp _ hturn hturnId _ hfree hrequests hv' =>
    subst hv'
    rcases (Table.mem_save_of_mem (r := withTurnStatus .needsClarification turn) hturn rfl).mp
      hturn' with rfl | ⟨hx, -⟩
    · refine .inr fun r hr hrt => ?_
      rcases (Table.mem_insert hrequests).mp hr with hr | rfl
      · exact absurd (hrt.trans hturnId) (hfree r hr)
      · rfl
    · exact hold hx
  | questioned p r turn question _ _ _ _ hturn _ hturnSt hv' =>
    subst hv'
    rcases (Table.mem_save_of_mem (r := askingTurn question turn) hturn rfl).mp
      hturn' with rfl | ⟨hx, -⟩
    · exact .inl ⟨turn, hturn, rfl, hturnSt⟩
    · exact hold hx
  | answered _ _ turn answer _ _ _ _ _ _ _ hturn _ _ _ hv' =>
    subst hv'
    exact hold (hsaved turn hturn (answeredTurn answer turn) rfl nofun hturn')
  | turnCompleted _ turn turn' _ _ hturn _ _ hid hst hv' =>
    subst hv'
    refine hold (hsaved turn hturn turn' hid ?_ hturn')
    rw [hst]
    nofun
  | worked hw => exact hold (hw.turns ▸ hturn')
  | quiet hv' => exact hold (hv' ▸ hturn')
  | planCreated _ _ _ _ _ _ _ _ hv' => subst hv'; exact hold hturn'
  | taskCreated _ _ _ _ _ _ _ _ hv' => subst hv'; exact hold hturn'
  | revised _ _ _ _ _ _ _ _ _ _ _ _ hv' => subst hv'; exact hold hturn'
  | unsupported _ _ _ _ hv' => subst hv'; exact hold hturn'
  | resolved _ _ _ _ _ _ _ _ hv' => subst hv'; exact hold hturn'

/-- A plan that waits, and for which no revision is asked, waits on, unless it is marked. -/
theorem waitingPlan_forth {retries : Option PlanId} {v v' : View} (h : WorkflowStep retries v v')
    {p : Plan} (hp : p ∈ v.plans) (hst : p.status = .needsClarification)
    (hev : ∀ ev ∈ v.replans, ev.payload.previousPlanId ≠ p.planId) :
    p ∈ v'.plans ∨ Expires p.planId v.clarifications v'.clarifications := by
  have hsaved : ∀ q ∈ v.plans, ∀ saved : Plan, saved.planId = q.planId →
      q.status ≠ .needsClarification → p ∈ v.plans.save saved := by
    intro q hq saved hid hqst
    refine (Table.mem_save_of_mem hq hid).mpr (.inr ⟨hp, ?_⟩)
    rintro rfl
    exact hqst hst
  cases h with
  | planCreated _ _ _ plans _ _ _ hplans hv' =>
    subst hv'
    exact .inl ((Table.mem_insert hplans).mpr (.inl hp))
  | published q _ _ hq hqst _ _ _ _ hv' =>
    subst hv'
    exact .inl (hsaved q hq (publishPlan q) rfl (by rw [hqst]; nofun))
  | worked hw =>
    obtain ⟨p', hp', hwork⟩ := hw.plans.forth hp
    rcases hwork.status with rfl | ⟨hworking, -⟩
    · exact .inl hp'
    · rw [hst] at hworking
      cases hworking
  | revised q ev _ now plans hq hin hprev _ _ _ hplans hv' =>
    subst hv'
    refine .inl ((Table.mem_insert hplans).mpr (.inl ?_))
    refine (Table.mem_save_of_mem (r := supersedePlan now q) hq rfl).mpr (.inr ⟨hp, ?_⟩)
    rintro rfl
    exact hev ev hin hprev
  | exhausted q ev _ now hq hin hprev _ _ _ hv' =>
    subst hv'
    refine .inl ((Table.mem_save_of_mem (r := exhaustPlan now q) hq rfl).mpr (.inr ⟨hp, ?_⟩))
    rintro rfl
    exact hev ev hin hprev
  | unsupported q reason hq hqst hv' =>
    subst hv'
    exact .inl (hsaved q hq (setPlanStatus .unsupported (some reason) (some "unsupported") q) rfl
      (by rw [hqst]; nofun))
  | retried q _ reason _ _ _ hq _ _ _ hexpires _ hv' =>
    subst hv'
    by_cases hqp : p = q
    · exact .inr (hqp ▸ hexpires)
    · exact .inl ((Table.mem_save_of_mem (r := setPlanStatus .retryPending (some reason)
        (some "planner_system_failure") q) hq rfl).mpr (.inr ⟨hp, hqp⟩))
  | asked q _ _ command _ hq hqst _ _ _ _ _ hv' =>
    subst hv'
    exact .inl (hsaved q hq (setPlanStatus .needsClarification (some command.reason.text)
      (some "clarification_required") q) rfl (by rw [hqst]; nofun))
  | quiet hv' => subst hv'; exact .inl hp
  | turnCreated _ _ _ _ hv' => subst hv'; exact .inl hp
  | turnRouted _ _ _ _ _ hv' => subst hv'; exact .inl hp
  | taskCreated _ _ _ _ _ _ _ _ hv' => subst hv'; exact .inl hp
  | questioned _ _ _ _ _ _ _ _ _ _ _ hv' => subst hv'; exact .inl hp
  | answered _ _ _ _ _ _ _ _ _ _ _ _ _ _ _ hv' => subst hv'; exact .inl hp
  | turnCompleted _ _ _ _ _ _ _ _ _ _ hv' => subst hv'; exact .inl hp
  | resolved _ _ _ _ _ _ _ _ hv' => subst hv'; exact .inl hp

/-- A plan that waits after a step waited before, or asks now. -/
theorem waitingPlan_back {retries : Option PlanId} {v v' : View} (h : WorkflowStep retries v v')
    {p' : Plan} (hp' : p' ∈ v'.plans) (hst : p'.status = .needsClarification) :
    p' ∈ v.plans ∨ v'.replans = v.replans ∧ ∃ p ∈ v.plans, p.planId = p'.planId ∧
      p.status = .planning := by
  have hsaved : ∀ q ∈ v.plans, ∀ saved : Plan, saved.planId = q.planId →
      saved.status ≠ .needsClarification → p' ∈ v.plans.save saved → p' ∈ v.plans := by
    intro q hq saved hid hqst hx
    rcases (Table.mem_save_of_mem hq hid).mp hx with rfl | ⟨hx, -⟩
    · exact absurd hst hqst
    · exact hx
  cases h with
  | planCreated _ _ _ plans _ _ _ hplans hv' =>
    subst hv'
    rcases (Table.mem_insert hplans).mp hp' with hx | rfl
    · exact .inl hx
    · cases hst
  | published q _ _ hq _ _ _ _ _ hv' =>
    subst hv'
    exact .inl (hsaved q hq (publishPlan q) rfl nofun hp')
  | worked hw =>
    obtain ⟨p, hp, hwork⟩ := hw.plans.back hp'
    rcases hwork.status with rfl | ⟨-, hworked⟩
    · exact .inl hp
    · rw [hst] at hworked
      cases hworked
  | revised q _ _ now plans hq _ _ _ _ _ hplans hv' =>
    subst hv'
    rcases (Table.mem_insert hplans).mp hp' with hx | rfl
    · exact .inl (hsaved q hq (supersedePlan now q) rfl nofun hx)
    · cases hst
  | exhausted q _ _ now hq _ _ _ _ _ hv' =>
    subst hv'
    exact .inl (hsaved q hq (exhaustPlan now q) rfl nofun hp')
  | unsupported q reason hq _ hv' =>
    subst hv'
    exact .inl (hsaved q hq (setPlanStatus .unsupported (some reason) (some "unsupported") q) rfl
      nofun hp')
  | retried q _ reason _ _ _ hq _ _ _ _ _ hv' =>
    subst hv'
    exact .inl (hsaved q hq (setPlanStatus .retryPending (some reason)
      (some "planner_system_failure") q) rfl nofun hp')
  | asked q _ _ command _ hq hqst _ _ _ _ _ hv' =>
    subst hv'
    rcases (Table.mem_save_of_mem (r := setPlanStatus .needsClarification (some command.reason.text)
      (some "clarification_required") q) hq rfl).mp hp' with rfl | ⟨hx, -⟩
    · exact .inr ⟨rfl, q, hq, rfl, hqst⟩
    · exact .inl hx
  | quiet hv' => subst hv'; exact .inl hp'
  | turnCreated _ _ _ _ hv' => subst hv'; exact .inl hp'
  | turnRouted _ _ _ _ _ hv' => subst hv'; exact .inl hp'
  | taskCreated _ _ _ _ _ _ _ _ hv' => subst hv'; exact .inl hp'
  | questioned _ _ _ _ _ _ _ _ _ _ _ hv' => subst hv'; exact .inl hp'
  | answered _ _ _ _ _ _ _ _ _ _ _ _ _ _ _ hv' => subst hv'; exact .inl hp'
  | turnCompleted _ _ _ _ _ _ _ _ _ _ hv' => subst hv'; exact .inl hp'
  | resolved _ _ _ _ _ _ _ _ hv' => subst hv'; exact .inl hp'

/-! ## The invariant -/

/-- A request that the user has answered. -/
def isAnswered : ClarificationStatus → Bool
  | .answered | .resolved => true
  | _ => false

/-- The plan of an open request waits, and no revision of it is asked for. -/
structure Waits (v : View) (r : ClarificationRequest) : Prop where
  unanswered : r.answerTurnId = none
  plan : ∃ p ∈ v.plans, p.planId = r.sourcePlanId ∧ p.status = .needsClarification
  quiet : ∀ ev ∈ v.replans, ev.payload.previousPlanId ≠ r.sourcePlanId

structure Clarified (v : View) : Prop where
  source : ∀ r ∈ v.clarifications, ∃ p ∈ v.plans, p.planId = r.sourcePlanId ∧
    p.turnId = r.sourceTurnId ∧ isClosed p.status = true
  turnUnique : ∀ r ∈ v.clarifications, ∀ r' ∈ v.clarifications, r.sourceTurnId = r'.sourceTurnId →
    r = r'
  opened : ∀ r ∈ v.clarifications, r.status = .opened → Waits v r
  answered : ∀ r ∈ v.clarifications, isAnswered r.status = true → ∀ turn ∈ v.turns,
    turn.turnId = r.sourceTurnId → turn.status ≠ .needsClarification
  resolved : ∀ r ∈ v.clarifications, r.status = .resolved →
    ∃ p ∈ v.plans, p.status = .completed ∧ p.parentPlanId = some r.sourcePlanId

section Step

variable {retries : Option PlanId} {v v' : View}

/-- A plan asks once. -/
theorem Clarified.planUnique (hc : Clarified v) {r r' : ClarificationRequest}
    (hr : r ∈ v.clarifications) (hr' : r' ∈ v.clarifications)
    (h : r.sourcePlanId = r'.sourcePlanId) : r = r' := by
  obtain ⟨p, hp, hid, hturn, -⟩ := hc.source r hr
  obtain ⟨q, hq, hid', hturn', -⟩ := hc.source r' hr'
  obtain rfl := Table.eq_of_key hp hq (hid.trans (h.trans hid'.symm))
  exact hc.turnUnique r hr r' hr' (hturn.symm.trans hturn')

/-- The parent of a plan is superseded. -/
theorem Lineage.parent_superseded (hl : Lineage v) {p q : Plan} (hp : p ∈ v.plans)
    (hq : q ∈ v.plans) (hparent : p.parentPlanId = some q.planId) : q.status = .superseded := by
  cases hl.origin p hp with
  | root _ hnone =>
    rw [hnone] at hparent
    cases hparent
  | revision x hx hst hpx =>
    obtain rfl : x = q := Table.eq_of_key hx hq (Option.some.inj (hpx.symm.trans hparent))
    exact hst

/-- No revision is asked of a plan that the planner still works on. -/
theorem Lineage.quiet (hl : Lineage v) {p : Plan} (hp : p ∈ v.plans)
    (hlive : isClosed p.status = false) : ∀ ev ∈ v.replans, ev.payload.previousPlanId ≠ p.planId := by
  intro ev hev hprev
  rw [(hl.asked hp hev hprev).2] at hlive
  cases hlive

theorem Clarified.source_step (hl : Lineage v) (hc : Clarified v) (h : WorkflowStep retries v v') :
    ∀ r ∈ v'.clarifications, ∃ p ∈ v'.plans, p.planId = r.sourcePlanId ∧
      p.turnId = r.sourceTurnId ∧ isClosed p.status = true := by
  have hmoved : ∀ r' ∈ v'.clarifications, ∀ r ∈ v.clarifications, RequestMove retries v v' r r' →
      ∃ p ∈ v'.plans, p.planId = r'.sourcePlanId ∧ p.turnId = r'.sourceTurnId ∧
        isClosed p.status = true := by
    intro r' _ r hr hm
    obtain ⟨p, hp, hid, hturn, hclosed⟩ := hc.source r hr
    obtain ⟨p', hp', hpm⟩ := (hl.plansStep h).forth p hp
    refine ⟨p', hp', ?_, ?_, hpm.closed hclosed⟩
    · rw [hpm.same.planId, hid, hm.same.sourcePlanId]
    · rw [hpm.same.turnId, hturn, hm.same.sourceTurnId]
  intro r' hr'
  rcases (requestsStep h).back with hback | ⟨n, hn, hback⟩
  · obtain ⟨r, hr, hm⟩ := hback r' hr'
    exact hmoved r' hr' r hr hm
  · rcases hback r' hr' with rfl | ⟨r, hr, hm⟩
    · obtain ⟨p, -, -, hnp, hnt, p', hp', hsame, hst⟩ := hn.source
      exact ⟨p', hp', hsame.planId.trans hnp.symm, hsame.turnId.trans hnt.symm, by rw [hst]; rfl⟩
    · exact hmoved r' hr' r hr hm

theorem Clarified.turnUnique_step (hc : Clarified v) (h : WorkflowStep retries v v') :
    ∀ r ∈ v'.clarifications, ∀ r' ∈ v'.clarifications, r.sourceTurnId = r'.sourceTurnId →
      r = r' := by
  have hmoved : ∀ x' ∈ v'.clarifications, ∀ y' ∈ v'.clarifications, ∀ x ∈ v.clarifications,
      ∀ y ∈ v.clarifications, RequestMove retries v v' x x' → RequestMove retries v v' y y' →
      x'.sourceTurnId = y'.sourceTurnId → x' = y' := by
    intro x' hx' y' hy' x hx y hy hxm hym hk
    rw [hxm.same.sourceTurnId, hym.same.sourceTurnId] at hk
    obtain rfl := hc.turnUnique x hx y hy hk
    exact Table.eq_of_key hx' hy' (hxm.same.clarificationId.trans hym.same.clarificationId.symm)
  intro x' hx' y' hy' hk
  rcases (requestsStep h).back with hback | ⟨n, hn, hback⟩
  · obtain ⟨x, hx, hxm⟩ := hback x' hx'
    obtain ⟨y, hy, hym⟩ := hback y' hy'
    exact hmoved x' hx' y' hy' x hx y hy hxm hym hk
  · rcases hback x' hx' with rfl | ⟨x, hx, hxm⟩ <;> rcases hback y' hy' with rfl | ⟨y, hy, hym⟩
    · rfl
    · exact absurd (hym.same.sourceTurnId.symm.trans hk.symm) (hn.turnFree y hy)
    · exact absurd (hxm.same.sourceTurnId.symm.trans hk) (hn.turnFree x hx)
    · exact hmoved x' hx' y' hy' x hx y hy hxm hym hk

/-- A request that is open after a step was open before it, or is new. -/
theorem opened_step (h : WorkflowStep retries v v') {r' : ClarificationRequest}
    (hr' : r' ∈ v'.clarifications) (hopen : r'.status = .opened) :
    Opened v v' r' ∨ ∃ r ∈ v.clarifications, SameRequest r r' ∧ r.status = .opened ∧
      r'.answerTurnId = r.answerTurnId := by
  have hmoved : ∀ r ∈ v.clarifications, RequestMove retries v v' r r' →
      ∃ r ∈ v.clarifications, SameRequest r r' ∧ r.status = .opened ∧
        r'.answerTurnId = r.answerTurnId := by
    intro r hr hm
    refine ⟨r, hr, hm.same, ?_⟩
    cases hm with
    | kept => exact ⟨hopen, rfl⟩
    | questioned question p turn _ _ _ _ _ => exact ⟨hopen, rfl⟩
    | answered => cases hopen
    | expired => cases hopen
    | resolved => cases hopen
  rcases (requestsStep h).back with hback | ⟨n, hn, hback⟩
  · obtain ⟨r, hr, hm⟩ := hback r' hr'
    exact .inr (hmoved r hr hm)
  · rcases hback r' hr' with rfl | ⟨r, hr, hm⟩
    · exact .inl hn
    · exact .inr (hmoved r hr hm)

/-- The request of a plan that has been marked is open no more. -/
theorem Clarified.expires (hc : Clarified v) {r r' : ClarificationRequest}
    (hr : r ∈ v.clarifications) (hr' : r' ∈ v'.clarifications) (hsame : SameRequest r r')
    (h : Expires r.sourcePlanId v.clarifications v'.clarifications) : r'.status = .expired := by
  cases h with
  | none hfree _ => exact absurd rfl (hfree r hr)
  | some x now hx hxp heq =>
    obtain rfl := hc.planUnique hx hr hxp
    rw [heq] at hr'
    rcases (Table.mem_save_of_mem (r := expireRequest now x) hx rfl).mp hr' with rfl | ⟨hold, hne⟩
    · rfl
    · exact absurd (Table.eq_of_key hold hx hsame.clarificationId) hne

theorem Clarified.opened_step (hl : Lineage v) (hc : Clarified v) (h : WorkflowStep retries v v') :
    ∀ r ∈ v'.clarifications, r.status = .opened → Waits v' r := by
  intro r' hr' hopen
  rcases Workflow.opened_step h hr' hopen with hn | ⟨r, hr, hsame, hropen, hanswer⟩
  · obtain ⟨p, hp, hst, hnp, -, p', hp', hpm, hst'⟩ := hn.source
    refine ⟨hn.answerTurnId, ⟨p', hp', hpm.planId.trans hnp.symm, hst'⟩, ?_⟩
    rw [hn.replans, hnp]
    exact hl.quiet hp (by rw [hst]; rfl)
  · obtain ⟨hnone, ⟨p, hp, hid, hst⟩, hquiet⟩ := hc.opened r hr hropen
    have hexpired : ¬ Expires r.sourcePlanId v.clarifications v'.clarifications := by
      intro hexp
      rw [hc.expires hr hr' hsame hexp] at hopen
      cases hopen
    refine ⟨hanswer.trans hnone, ?_, ?_⟩
    · rcases waitingPlan_forth h hp hst (by rw [hid]; exact hquiet) with hp' | hexp
      · exact ⟨p, hp', hid.trans hsame.sourcePlanId.symm, hst⟩
      · exact absurd (hid ▸ hexp) hexpired
    · rw [hsame.sourcePlanId]
      -- a new event for the waiting plan has answered its request, or expired it
      have hnew : ∀ q ev, q ∈ v.plans → Asks q ev.payload → v'.replans = v.replans ++ [ev] →
          (q.planId = r.sourcePlanId → False) →
          ∀ x ∈ v'.replans, x.payload.previousPlanId ≠ r.sourcePlanId := by
        intro q ev _ hasks hreplans hne x hx hprev
        rw [hreplans, List.mem_append, List.mem_singleton] at hx
        rcases hx with hx | rfl
        · exact hquiet x hx hprev
        · exact hne (hasks.previousPlanId.symm.trans hprev)
      cases replansStep h with
      | same heq =>
        rw [heq]
        exact hquiet
      | failed q ev hq hrun hasks hreplans =>
        refine hnew q ev hq hasks hreplans fun hqr => ?_
        obtain rfl := Table.eq_of_key hq hp (hqr.trans hid.symm)
        rw [hst] at hrun
        cases hrun
      | retried q ev hq _ _ hasks hreplans hexp _ =>
        exact hnew q ev hq hasks hreplans fun hqr => hexpired (hqr ▸ hexp)
      | answered q x ev hq _ hx hxq _ hasks hreplans hrequests =>
        refine hnew q ev hq hasks hreplans fun hqr => ?_
        obtain rfl := hc.planUnique hx hr (hxq.trans hqr)
        rw [hrequests] at hr'
        rcases (Table.mem_save_of_mem (r := answeredRequest q.turnId x) hx rfl).mp hr' with
          rfl | ⟨hold, hne⟩
        · cases hopen
        · exact hne (Table.eq_of_key hold hx hsame.clarificationId)

/-- The user's answer stays, as far as the turn is concerned. -/
theorem Clarified.answered_step (hc : Clarified v) (h : WorkflowStep retries v v') :
    ∀ r ∈ v'.clarifications, isAnswered r.status = true → ∀ turn ∈ v'.turns,
      turn.turnId = r.sourceTurnId → turn.status ≠ .needsClarification := by
  intro r' hr' hanswered turn' hturn' hid hwait
  rcases waitingTurn_step h hturn' hwait with ⟨turn, hturn, hturnId, hst⟩ | hopened
  · have hnot : ∀ r ∈ v.clarifications, r.sourceTurnId = turn'.turnId →
        isAnswered r.status = false := by
      intro r hr hrt
      by_contra hra
      exact hc.answered r hr (eq_true_of_ne_false hra) turn hturn (hturnId.trans hrt.symm) hst
    have hmoved : ∀ r ∈ v.clarifications, RequestMove retries v v' r r' → False := by
      intro r hr hm
      have hra := hnot r hr (hm.same.sourceTurnId.symm.trans hid.symm)
      cases hm with
      | kept =>
        rw [hra] at hanswered
        cases hanswered
      | questioned _ _ _ _ _ _ _ _ =>
        have hanswered : isAnswered r.status = true := hanswered
        rw [hra] at hanswered
        cases hanswered
      | answered _ _ hturns => exact hturns turn' hturn' hid hwait
      | expired => cases hanswered
      | resolved _ _ _ _ _ _ hst =>
        rw [hst] at hra
        cases hra
    rcases (requestsStep h).back with hback | ⟨n, hn, hback⟩
    · obtain ⟨r, hr, hm⟩ := hback r' hr'
      exact hmoved r hr hm
    · rcases hback r' hr' with rfl | ⟨r, hr, hm⟩
      · rw [hn.status] at hanswered
        cases hanswered
      · exact hmoved r hr hm
  · rw [hopened r' hr' hid.symm] at hanswered
    cases hanswered

theorem Clarified.resolved_step (hl : Lineage v) (hc : Clarified v) (h : WorkflowStep retries v v') :
    ∀ r ∈ v'.clarifications, r.status = .resolved →
      ∃ p ∈ v'.plans, p.status = .completed ∧ p.parentPlanId = some r.sourcePlanId := by
  intro r' hr' hst
  have hkept : ∀ r ∈ v.clarifications, r.sourcePlanId = r'.sourcePlanId → r.status = .resolved →
      ∃ p ∈ v'.plans, p.status = .completed ∧ p.parentPlanId = some r'.sourcePlanId := by
    intro r hr hid hrst
    obtain ⟨p, hp, hpst, hparent⟩ := hc.resolved r hr hrst
    obtain ⟨p', hp', hm⟩ := (hl.plansStep h).forth p hp
    refine ⟨p', hp', (hm.ended (by rw [hpst]; rfl)).trans hpst, ?_⟩
    rw [hm.same.parentPlanId, hparent, hid]
  have hmoved : ∀ r ∈ v.clarifications, RequestMove retries v v' r r' →
      ∃ p ∈ v'.plans, p.status = .completed ∧ p.parentPlanId = some r'.sourcePlanId := by
    intro r hr hm
    cases hm with
    | kept => exact hkept r' hr rfl hst
    | questioned _ _ _ _ _ _ _ _ => exact hkept r hr rfl hst
    | answered => cases hst
    | expired => cases hst
    | resolved now p _ hp' hpst hparent _ => exact ⟨p, hp', hpst, hparent⟩
  rcases (requestsStep h).back with hback | ⟨n, hn, hback⟩
  · obtain ⟨r, hr, hm⟩ := hback r' hr'
    exact hmoved r hr hm
  · rcases hback r' hr' with rfl | ⟨r, hr, hm⟩
    · rw [hn.status] at hst
      cases hst
    · exact hmoved r hr hm

theorem Clarified.step (hl : Lineage v) (hc : Clarified v) (h : WorkflowStep retries v v') :
    Clarified v' :=
  ⟨hc.source_step hl h, hc.turnUnique_step h, hc.opened_step hl h, hc.answered_step h,
    hc.resolved_step hl h⟩

end Step

theorem View.Blank.clarified {v : View} (h : v.Blank) : Clarified v := by
  obtain ⟨-, -, -, hr, -⟩ := h
  constructor <;> simp [Table.mem_iff, hr]

section Reachable

variable {config : RuntimeConfig} {s s' : WorkflowState}
  {ok : WorkflowState → WorkflowAction → Prop}

theorem workflow_clarified (h : (workflows config).ReachableVia ok s) :
    Clarified (view s.runtime.db) := by
  have hboth : Lineage (view s.runtime.db) ∧ Clarified (view s.runtime.db) :=
    view_invariant (P := fun v => Lineage v ∧ Clarified v) (fun v hb => ⟨hb.lineage, hb.clarified⟩)
      (fun _ _ _ _ hv hstep => ⟨(hv.1.plansStep hstep).lineage hv.1, hv.2.step hv.1 hstep⟩) h
  exact hboth.2

end Reachable

/-! ## One event for a plan, and one answer -/

/-- No plan is marked for a retry once its request is answered. -/
def KeepsAnswers (s : WorkflowState) (a : WorkflowAction) : Prop :=
  ∀ planId, a.retries = some planId →
    ∀ p ∈ s.runtime.db.plans.rows, p.planId = planId → p.status = .needsClarification →
      ∀ r ∈ s.runtime.db.clarifications.rows, r.sourcePlanId = planId → r.status ≠ .answered

instance (s : WorkflowState) (a : WorkflowAction) : Decidable (KeepsAnswers s a) :=
  match h : a.retries with
  | none => isTrue (by rw [KeepsAnswers, h]; nofun)
  | some planId =>
    decidable_of_iff
      (∀ p ∈ s.runtime.db.plans.rows, p.planId = planId → p.status = .needsClarification →
        ∀ r ∈ s.runtime.db.clarifications.rows, r.sourcePlanId = planId → r.status ≠ .answered)
      (by
        rw [KeepsAnswers, h]
        exact ⟨fun hk _ he => Option.some.inj he ▸ hk, fun hk => hk planId rfl⟩)

/-- A plan that waits with an event made for it has been answered. -/
structure AskedOnce (v : View) : Prop where
  once : (v.replans.map fun ev => ev.payload.previousPlanId).Nodup
  answered : ∀ p ∈ v.plans, p.status = .needsClarification →
    ∀ ev ∈ v.replans, ev.payload.previousPlanId = p.planId →
      ∃ r ∈ v.clarifications, r.sourcePlanId = p.planId ∧ r.status = .answered

section Once

variable {v v' : View} {s : WorkflowState} {a : WorkflowAction}

theorem nodup_append_event {evs : List ReplanRequested} {ev : ReplanRequested} {p : Plan}
    (h : (evs.map fun x => x.payload.previousPlanId).Nodup) (hasks : Asks p ev.payload)
    (hquiet : ∀ x ∈ evs, x.payload.previousPlanId ≠ p.planId) :
    ((evs ++ [ev]).map fun x => x.payload.previousPlanId).Nodup := by
  rw [List.map_append, List.map_singleton]
  refine List.Nodup.append h (List.nodup_singleton _) ?_
  rw [List.disjoint_singleton]
  intro hmem
  obtain ⟨x, hx, hprev⟩ := List.mem_map.mp hmem
  exact hquiet x hx (hprev.trans hasks.previousPlanId)

theorem AskedOnce.once_step (hl : Lineage (view s.runtime.db)) (hc : Clarified (view s.runtime.db))
    (ho : AskedOnce (view s.runtime.db)) (hok : KeepsAnswers s a)
    (h : WorkflowStep a.retries (view s.runtime.db) v') :
    (v'.replans.map fun ev => ev.payload.previousPlanId).Nodup := by
  cases replansStep h with
  | same heq =>
    rw [heq]
    exact ho.once
  | failed p ev hp hrun hasks hreplans =>
    rw [hreplans]
    exact nodup_append_event ho.once hasks (hl.quiet hp (by rw [hrun]; rfl))
  | retried p ev hp hretries hst hasks hreplans _ _ =>
    rw [hreplans]
    refine nodup_append_event ho.once hasks ?_
    rcases hst with hst | hst
    · -- an event for a waiting plan means that its request is answered
      intro x hx hprev
      obtain ⟨r, hr, hrp, hanswered⟩ := ho.answered p hp hst x hx hprev
      exact hok p.planId hretries p hp rfl hst r hr hrp hanswered
    · exact hl.quiet hp (by rw [hst]; rfl)
  | answered p r ev _ _ hr hrp hopen hasks hreplans _ =>
    rw [hreplans]
    refine nodup_append_event ho.once hasks ?_
    rw [← hrp]
    exact (hc.opened r hr hopen).quiet

theorem AskedOnce.answered_step (hl : Lineage (view s.runtime.db)) (ho : AskedOnce (view s.runtime.db))
    (h : WorkflowStep a.retries (view s.runtime.db) v') :
    ∀ p ∈ v'.plans, p.status = .needsClarification →
      ∀ ev ∈ v'.replans, ev.payload.previousPlanId = p.planId →
        ∃ r ∈ v'.clarifications, r.sourcePlanId = p.planId ∧ r.status = .answered := by
  intro p hp' hst ev hev hprev
  rcases waitingPlan_back h hp' hst with hp | ⟨hsame, q, hq, hid, hqst⟩
  · have hold : ev ∈ (view s.runtime.db).replans →
        ∃ r ∈ v'.clarifications, r.sourcePlanId = p.planId ∧ r.status = .answered := by
      intro hev
      obtain ⟨r, hr, hrp, hanswered⟩ := ho.answered p hp hst ev hev hprev
      obtain ⟨r', hr', hm⟩ := (requestsStep h).forth r hr
      cases hm with
      | kept => exact ⟨r, hr', hrp, hanswered⟩
      | questioned question _ _ _ _ _ _ _ => exact ⟨askedRequest question r, hr', hrp, hanswered⟩
      | answered _ hopen _ =>
        rw [hanswered] at hopen
        cases hopen
      | expired now q _ hrq _ _ hretried =>
        rw [hretried p hp' (hrp.symm.trans hrq)] at hst
        cases hst
      | resolved now q hq _ _ hparent _ =>
        rw [hrp] at hparent
        rw [hl.parent_superseded hq hp hparent] at hst
        cases hst
    cases replansStep h with
    | same heq => exact hold (heq ▸ hev)
    | failed q x hq hrun hasks hreplans =>
      rw [hreplans, List.mem_append, List.mem_singleton] at hev
      rcases hev with hev | rfl
      · exact hold hev
      · obtain rfl : q = p := Table.eq_of_key hq hp (hasks.previousPlanId.symm.trans hprev)
        rw [hst] at hrun
        cases hrun
    | retried q x hq _ _ hasks hreplans _ hretried =>
      rw [hreplans, List.mem_append, List.mem_singleton] at hev
      rcases hev with hev | rfl
      · exact hold hev
      · rw [hretried p hp' (hprev.symm.trans hasks.previousPlanId)] at hst
        cases hst
    | answered q r x hq _ hr hrq _ hasks hreplans hrequests =>
      rw [hreplans, List.mem_append, List.mem_singleton] at hev
      rcases hev with hev | rfl
      · exact hold hev
      · refine ⟨answeredRequest q.turnId r, ?_, ?_, rfl⟩
        · rw [hrequests]
          exact (Table.mem_save_of_mem (r := answeredRequest q.turnId r) hr rfl).mpr (.inl rfl)
        · exact hrq.trans (hasks.previousPlanId.symm.trans hprev)
  · rw [hsame] at hev
    exact absurd (hprev.trans hid.symm) (hl.quiet hq (by rw [hqst]; rfl) ev hev)

/-- An answer is kept by a step. -/
theorem answer_step (hl : Lineage (view s.runtime.db)) (hc : Clarified (view s.runtime.db))
    (hok : KeepsAnswers s a) (h : WorkflowStep a.retries (view s.runtime.db) v')
    {r : ClarificationRequest} (hr : r ∈ s.runtime.db.clarifications)
    (hanswered : isAnswered r.status = true) :
    ∃ r' ∈ v'.clarifications, r'.clarificationId = r.clarificationId ∧ r'.question = r.question ∧
      isAnswered r'.status = true := by
  obtain ⟨p, hp, hid, hturnId, hclosed⟩ := hc.source r hr
  obtain ⟨r', hr', hm⟩ := (requestsStep h).forth r hr
  refine ⟨r', hr', hm.same.clarificationId, ?_⟩
  cases hm with
  | kept => exact ⟨rfl, hanswered⟩
  | questioned question q turn hq hrq hturn hqturn hturnSt =>
    obtain rfl : q = p := Table.eq_of_key hq hp (hrq.symm.trans hid.symm)
    exact absurd hturnSt (hc.answered r hr hanswered turn hturn (hqturn.trans hturnId))
  | answered _ hopen _ =>
    rw [hopen] at hanswered
    cases hanswered
  | expired now q hq hrq hretries hst _ =>
    obtain rfl : q = p := Table.eq_of_key hq hp (hrq.symm.trans hid.symm)
    rcases hst with hst | hst
    · cases hrst : r.status with
      | answered => exact absurd hrst (hok q.planId hretries q hq rfl hst r hr hrq)
      | resolved =>
        obtain ⟨x, hx, -, hparent⟩ := hc.resolved r hr hrst
        rw [hrq] at hparent
        rw [hl.parent_superseded hx hq hparent] at hst
        cases hst
      | opened | expired =>
        rw [hrst] at hanswered
        cases hanswered
    · rw [hst] at hclosed
      cases hclosed
  | resolved now q _ _ _ _ _ => exact ⟨rfl, rfl⟩

end Once

section Runs

variable {config : RuntimeConfig} {s s' : WorkflowState}

theorem workflow_askedOnce (h : (workflows config).ReachableVia KeepsAnswers s) :
    AskedOnce (view s.runtime.db) := by
  refine h.invariant (P := fun s => AskedOnce (view s.runtime.db)) ?_ ?_
  · intro s hi
    obtain ⟨-, hplans, -, -, hreplans⟩ := WorkflowState.Fresh.blank hi
    constructor <;> simp [Table.mem_iff, hplans, hreplans]
  · intro s a s' hr ho hok hstep
    have hcases := workflow_step_cases (workflow_owned hr) hstep
    exact ⟨ho.once_step (workflow_lineage hr) (workflow_clarified hr) hok hcases,
      ho.answered_step (workflow_lineage hr) hcases⟩

/-- **One replan request for a revision, and answers that stay**, where no plan is marked for a
retry after its request was answered. -/
theorem one_replan_request (hs : (workflows config).ReachableVia KeepsAnswers s) :
    (∀ planId, ((s.runtime.db.outbox.rows.filterMap replanOf).filter fun ev =>
      ev.payload.previousPlanId = planId).length ≤ 1) ∧
    ∀ r ∈ s.runtime.db.clarifications, r.status = .answered →
      ∀ as s', (workflows config).RunVia KeepsAnswers s as s' →
        ∃ r' ∈ s'.runtime.db.clarifications, r'.clarificationId = r.clarificationId ∧
          r'.question = r.question ∧ (r'.status = .answered ∨ r'.status = .resolved) := by
  refine ⟨fun planId => ?_, fun r hr hst as s' hrun => ?_⟩
  · have honce : ((requestsIn s.runtime.db.outbox).map fun ev =>
        ev.payload.previousPlanId).Nodup := (workflow_askedOnce hs).once
    rw [← List.countP_eq_length_filter]
    refine le_trans (le_of_eq ?_) (List.nodup_iff_count_le_one.mp honce planId)
    rw [List.count, List.countP_map]
    exact List.countP_congr fun ev _ => by simp
  · have hkept : ∃ r' ∈ s'.runtime.db.clarifications, r'.clarificationId = r.clarificationId ∧
        r'.question = r.question ∧ isAnswered r'.status = true := by
      refine hrun.preserves (P := fun s' => ∃ r' ∈ s'.runtime.db.clarifications,
        r'.clarificationId = r.clarificationId ∧ r'.question = r.question ∧
          isAnswered r'.status = true) ?_ hs ⟨r, hr, rfl, rfl, by rw [hst]; rfl⟩
      rintro s₁ a s₂ hr₁ ⟨r₁, hr₁m, hid, hquestion, hanswered⟩ hok hstep
      obtain ⟨r₂, hr₂, hid₂, hquestion₂, hanswered₂⟩ := answer_step (workflow_lineage hr₁)
        (workflow_clarified hr₁) hok (workflow_step_cases (workflow_owned hr₁) hstep) hr₁m hanswered
      exact ⟨r₂, hr₂, hid₂.trans hid, hquestion₂.trans hquestion, hanswered₂⟩
    obtain ⟨r', hr', hid, hquestion, hanswered⟩ := hkept
    refine ⟨r', hr', hid, hquestion, ?_⟩
    cases hrst : r'.status with
    | answered => exact .inl rfl
    | resolved => exact .inr rfl
    | opened | expired =>
      rw [hrst] at hanswered
      cases hanswered

end Runs

/-! ## A late retry -/

/-- The planner asks, and the user answers before the question is written. -/
def answerEarly : List WorkflowAction :=
  sendFirstMessage ++
    [ .markPlanNeedsClarification 1 ⟨1, 1, .resource, ⟨"which file?", by decide⟩, [], []⟩,
      .answerClarification 1 0 1 1 "the second one" ]

def answeredEarly : WorkflowState := nothingSent.afterAll answerEarly

/-- The planner has read the plan before, without a question. -/
def lateRetry : WorkflowAction := .markPlanRetryPending 2 0 0 1 ⟨"no question", by decide⟩

/-- A plan is asked for twice, and an answer is lost. -/
theorem late_retry_expires_answer :
    ∃ s s' : WorkflowState, (workflows defaultConfig).Reachable s ∧
      (workflows defaultConfig).step s lateRetry = some s' ∧
      (s.runtime.db.clarifications.rows.map fun r => r.status) = [.answered] ∧
      (s'.runtime.db.clarifications.rows.map fun r => r.status) = [.expired] ∧
      ((s'.runtime.db.outbox.rows.filterMap replanOf).filter fun ev =>
        ev.payload.previousPlanId = 1).length = 2 :=
  ⟨answeredEarly, answeredEarly.afterAll [lateRetry], reachable_of_workflowRun answerEarly rfl,
    rfl, rfl, rfl, rfl⟩

/-- The event is answered instead. -/
def answerWithRevision : WorkflowAction := .runtime (.prepareRevision 2 (.at 0) false 1)

theorem one_replan_request_answered :
    ((answeredEarly.runtime.db.outbox.rows.filterMap replanOf).filter fun ev =>
        ev.payload.previousPlanId = 1).length ≤ 1 ∧
      ∃ r' ∈ (answeredEarly.afterAll [answerWithRevision]).runtime.db.clarifications,
        r'.clarificationId = 1 ∧ r'.question = none ∧
          (r'.status = .answered ∨ r'.status = .resolved) := by
  have hrun : (workflows defaultConfig).RunVia KeepsAnswers nothingSent answerEarly answeredEarly :=
    .of_runWhile rfl
  have hreach : (workflows defaultConfig).ReachableVia KeepsAnswers answeredEarly :=
    hrun.reachableVia (.init nothingSent_fresh)
  obtain ⟨honce, hkept⟩ := one_replan_request hreach
  exact ⟨honce 1, hkept _ (.head _) rfl [answerWithRevision] _ (.of_runWhile rfl)⟩

end DocFlow.Workflow
