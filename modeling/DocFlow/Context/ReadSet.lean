import DocFlow.Context.QueryTools

/-!
# The Read Set of an agent

The allowed chains and turns of an agent context are its Read Set.  A request is `Confined` when two
databases that agree on the Read Set give the same answer to it.

Every tool but one puts ids of the Read Set into its query, or answers without a query when there are
none.  `list_conversation_turns` hands on an empty list of ids, which the repository reads as no
restriction at all: a request that names no turns, by an agent that may read none, lists all turns of
the conversation (`Unrestricted`).
-/

namespace DocFlow.Context

open DocFlow.AgentRuntime

/-- The allowed ids belong to the conversation of the context. -/
structure Belongs (ctx : AgentToolContext) (db : QueryTables) : Prop where
  turns : ∀ t ∈ db.turns, t.turnId ∈ ctx.allowedContextTurnIds →
    ctx.conversationId = some t.conversationId
  chains : ∀ c ∈ db.chains, c.chainId ∈ ctx.allowedContextChainIds →
    ctx.conversationId = some c.conversationId

/-- The chain is one of the conversation of the context. -/
def OfConversation (ctx : AgentToolContext) (db : QueryTables) (chainId : ChainId) : Prop :=
  ∃ c ∈ db.chains, c.chainId = chainId ∧ ctx.conversationId = some c.conversationId

/-- Two databases have the same rows of the conversation in the Read Set. -/
structure Agree (ctx : AgentToolContext) (db db' : QueryTables) : Prop where
  turns : ∀ t, ctx.conversationId = some t.conversationId → t.turnId ∈ ctx.allowedContextTurnIds →
    (t ∈ db.turns ↔ t ∈ db'.turns)
  chains : ∀ c, ctx.conversationId = some c.conversationId →
    c.chainId ∈ ctx.allowedContextChainIds → (c ∈ db.chains ↔ c ∈ db'.chains)
  nodes : ∀ n, OfConversation ctx db n.chainId → n.chainId ∈ ctx.allowedContextChainIds →
    n.turnId ∈ ctx.allowedContextTurnIds → (n ∈ db.nodes ↔ n ∈ db'.nodes)
  resources : ∀ r, OfConversation ctx db r.chainId → r.chainId ∈ ctx.allowedContextChainIds →
    (r ∈ db.resources ↔ r ∈ db'.resources)

/-- Nothing outside the Read Set is reflected in the answer. -/
def Confined (ctx : AgentToolContext) (request : ContextRequest) : Prop :=
  ∀ db db', Belongs ctx db → Belongs ctx db' → Agree ctx db db' →
    answer ctx db request = answer ctx db' request

/-- A list of turns, by an agent that may read no turns, without ids: the request is admitted, and
its other filters do not exclude every turn. -/
def Unrestricted (ctx : AgentToolContext) : ContextRequest → Prop
  | .listConversationTurns query =>
    contextReadPermission ∈ ctx.permissions ∧
    (ctx.services.listConversationTurns ∨ ctx.services.queryService) ∧
    (∃ conversationId, ctx.conversationId = some conversationId ∧
      given query.conversationId (· = conversationId)) ∧
    query.turnIds = [] ∧ ctx.allowedContextTurnIds = ∅ ∧
    (query.turnStatuses = [] ∨ ∃ status, turnStatusValue status ∈ query.turnStatuses)
  | _ => False

section ReadSet

variable {ctx : AgentToolContext} {db db' : QueryTables}

/-! ## The ids in a query -/

theorem conversationScope_eq_ok {requested : Option ConversationId} {conversationId : ConversationId}
    (h : conversationScope ctx requested = .ok conversationId) :
    ctx.conversationId = some conversationId ∧ given requested (· = conversationId) := by
  unfold conversationScope at h
  split at h
  · cases h
  · next c hc =>
    split at h
    · next hgiven =>
      cases h
      exact ⟨hc, hgiven⟩
    · cases h

theorem allowedIds_eq_ok {requested : List Nat} {allowed : Finset Nat} {ids : List Nat}
    (h : allowedIds requested allowed = .ok ids) :
    (∀ x ∈ ids, x ∈ allowed) ∧ (ids = [] ↔ requested = [] ∧ allowed = ∅) := by
  simp only [allowedIds] at h
  split at h
  · next hall =>
    obtain rfl := Except.ok.inj h
    split
    · next hnil =>
      refine ⟨fun x hx => (Finset.mem_sort _).mp hx, ?_⟩
      rw [PyString.fromKeys_eq_nil] at hnil
      have hsort : allowed.sort (· ≤ ·) = [] ↔ allowed = ∅ := by
        rw [← List.toFinset_eq_empty_iff, Finset.sort_toFinset]
      rw [hsort]
      simp [hnil]
    · next hne =>
      refine ⟨hall, ?_⟩
      rw [PyString.fromKeys_eq_nil] at hne ⊢
      simp [hne]
  · cases h

/-! ## Reading single rows -/

theorem Agree.get_turn (hb : Belongs ctx db) (hb' : Belongs ctx db') (h : Agree ctx db db')
    {turnId : TurnId} (ht : turnId ∈ ctx.allowedContextTurnIds) :
    db.turns.get? turnId = db'.turns.get? turnId := by
  ext t
  rw [Table.get?_eq_some, Table.get?_eq_some]
  constructor
  · rintro ⟨hmem, hid⟩
    have hallowed : t.turnId ∈ ctx.allowedContextTurnIds := by rw [← hid] at ht; exact ht
    exact ⟨(h.turns t (hb.turns t hmem hallowed) hallowed).mp hmem, hid⟩
  · rintro ⟨hmem, hid⟩
    have hallowed : t.turnId ∈ ctx.allowedContextTurnIds := by rw [← hid] at ht; exact ht
    exact ⟨(h.turns t (hb'.turns t hmem hallowed) hallowed).mpr hmem, hid⟩

theorem Agree.mem_chains (hb : Belongs ctx db) (hb' : Belongs ctx db') (h : Agree ctx db db')
    {c : ChainRow} (hc : c.chainId ∈ ctx.allowedContextChainIds) : c ∈ db.chains ↔ c ∈ db'.chains :=
  ⟨fun hmem => (h.chains c (hb.chains c hmem hc) hc).mp hmem,
    fun hmem => (h.chains c (hb'.chains c hmem hc) hc).mpr hmem⟩

theorem Agree.get_chain (hb : Belongs ctx db) (hb' : Belongs ctx db') (h : Agree ctx db db')
    {chainId : ChainId} (hc : chainId ∈ ctx.allowedContextChainIds) :
    db.chains.get? chainId = db'.chains.get? chainId := by
  ext c
  rw [Table.get?_eq_some, Table.get?_eq_some]
  refine and_congr_left fun hid => h.mem_chains hb hb' ?_
  rw [← hid] at hc
  exact hc

/-! ## Listing rows -/

/-- An allowed chain is in the conversation in both databases, or in neither. -/
theorem Agree.inConversation (hb : Belongs ctx db) (hb' : Belongs ctx db') (h : Agree ctx db db')
    {chainId : ChainId} (hc : chainId ∈ ctx.allowedContextChainIds)
    (conversationId : Option ConversationId) :
    chainInConversation db.chains conversationId chainId ↔
      chainInConversation db'.chains conversationId chainId := by
  unfold chainInConversation given
  refine forall_congr' fun conversation => imp_congr_right fun _ => exists_congr fun c => ?_
  refine and_congr_left ?_
  rintro ⟨rfl, -⟩
  exact h.mem_chains hb hb' hc

theorem ofConversation_of {conversationId : ConversationId}
    (hconv : ctx.conversationId = some conversationId) {chainId : ChainId}
    (h : chainInConversation db.chains (some conversationId) chainId) :
    OfConversation ctx db chainId := by
  obtain ⟨c, hc, hid, heq⟩ := h conversationId rfl
  exact ⟨c, hc, hid, by rw [hconv, heq]⟩

theorem oneOf_of_ne {α : Type} {values : List α} (hne : values ≠ []) {x : α} (h : oneOf values x) :
    x ∈ values := h.resolve_left hne

theorem Agree.listTurns (h : Agree ctx db db') {q : ConversationTurnSearchQuery}
    {conversationId : ConversationId} (hconv : ctx.conversationId = some conversationId)
    (hq : q.conversationId = some conversationId)
    (hids : ∀ x ∈ q.turnIds, x ∈ ctx.allowedContextTurnIds) (hne : q.turnIds ≠ []) :
    db.listTurns q = db'.listTurns q := by
  have hrows : ∀ t, t ∈ db.turns ∧ turnMatches q t ↔ t ∈ db'.turns ∧ turnMatches q t := by
    intro t
    refine and_congr_left ?_
    rintro ⟨hc, hid, -⟩
    have heq : t.conversationId = conversationId := hc conversationId hq
    exact h.turns t (by rw [hconv, heq]) (hids _ (oneOf_of_ne hne hid))
  rw [QueryTables.listTurns, QueryTables.listTurns, Table.count_congr hrows,
    Table.listing_congr hrows fun a b hab => ?_]
  exact congrArg (fun x => OrderDual.ofDual (ofLex x).2) hab

theorem Agree.listChains (h : Agree ctx db db') {q : ContextChainSearchQuery}
    {conversationId : ConversationId} (hconv : ctx.conversationId = some conversationId)
    (hq : q.conversationId = some conversationId)
    (hids : ∀ x ∈ q.chainIds, x ∈ ctx.allowedContextChainIds) (hne : q.chainIds ≠ []) :
    db.listChains q = db'.listChains q := by
  have hrows : ∀ c, c ∈ db.chains ∧ chainMatches q c ↔ c ∈ db'.chains ∧ chainMatches q c := by
    intro c
    refine and_congr_left ?_
    rintro ⟨hc, hid, -⟩
    have heq : c.conversationId = conversationId := hc conversationId hq
    exact h.chains c (by rw [hconv, heq]) (hids _ (oneOf_of_ne hne hid))
  rw [QueryTables.listChains, QueryTables.listChains, Table.count_congr hrows,
    Table.listing_congr hrows fun a b hab => ?_]
  exact congrArg (fun x => (ofLex x).2) hab

theorem Agree.listNodes (hb : Belongs ctx db) (hb' : Belongs ctx db') (h : Agree ctx db db')
    {q : ContextChainNodeSearchQuery} {conversationId : ConversationId}
    (hconv : ctx.conversationId = some conversationId) (hq : q.conversationId = some conversationId)
    (hchains : ∀ x ∈ q.chainIds, x ∈ ctx.allowedContextChainIds) (hne : q.chainIds ≠ [])
    (hturns : ∀ x ∈ q.turnIds, x ∈ ctx.allowedContextTurnIds) (hne' : q.turnIds ≠ []) :
    db.listNodes q = db'.listNodes q := by
  have hrows : ∀ n, n ∈ db.nodes ∧ nodeMatches db.chains q n ↔
      n ∈ db'.nodes ∧ nodeMatches db'.chains q n := by
    intro n
    by_cases hc : n.chainId ∈ ctx.allowedContextChainIds
    · have hmatches : nodeMatches db.chains q n ↔ nodeMatches db'.chains q n := by
        unfold nodeMatches
        rw [h.inConversation hb hb' hc]
      rw [← hmatches]
      refine and_congr_left ?_
      rintro ⟨hin, -, -, -, ht, -⟩
      rw [hq] at hin
      exact h.nodes n (ofConversation_of hconv hin) hc (hturns _ (oneOf_of_ne hne' ht))
    · have hnot : ∀ chains, ¬ nodeMatches chains q n := by
        rintro chains ⟨-, -, hid, -⟩
        exact hc (hchains _ (oneOf_of_ne hne hid))
      exact ⟨fun hm => absurd hm.2 (hnot _), fun hm => absurd hm.2 (hnot _)⟩
  rw [QueryTables.listNodes, QueryTables.listNodes, Table.count_congr hrows,
    Table.listing_congr hrows fun a b hab => ?_]
  exact congrArg (fun x => (ofLex (ofLex x).2).2) hab

theorem Agree.listResources (hb : Belongs ctx db) (hb' : Belongs ctx db') (h : Agree ctx db db')
    {q : ContextChainResourceSearchQuery} {conversationId : ConversationId}
    (hconv : ctx.conversationId = some conversationId) (hq : q.conversationId = some conversationId)
    (hchains : ∀ x ∈ q.chainIds, x ∈ ctx.allowedContextChainIds) (hne : q.chainIds ≠ []) :
    db.listResources q = db'.listResources q := by
  have hrows : ∀ r, r ∈ db.resources ∧ resourceMatches db.chains q r ↔
      r ∈ db'.resources ∧ resourceMatches db'.chains q r := by
    intro r
    by_cases hc : r.chainId ∈ ctx.allowedContextChainIds
    · have hmatches : resourceMatches db.chains q r ↔ resourceMatches db'.chains q r := by
        unfold resourceMatches
        rw [h.inConversation hb hb' hc]
      rw [← hmatches]
      refine and_congr_left ?_
      rintro ⟨hin, -⟩
      rw [hq] at hin
      exact h.resources r (ofConversation_of hconv hin) hc
    · have hnot : ∀ chains, ¬ resourceMatches chains q r := by
        rintro chains ⟨-, -, hid, -⟩
        exact hc (hchains _ (oneOf_of_ne hne hid))
      exact ⟨fun hm => absurd hm.2 (hnot _), fun hm => absurd hm.2 (hnot _)⟩
  rw [QueryTables.listResources, QueryTables.listResources, Table.count_congr hrows,
    Table.listing_congr hrows fun a b hab => ?_]
  exact congrArg (fun x => OrderDual.ofDual (ofLex x).2) hab

/-! ## The tools -/

theorem requireAllowedId_eq_ok {value : Nat} {allowed : Finset Nat} {u : Unit}
    (h : requireAllowedId value allowed = .ok u) : value ∈ allowed := by
  unfold requireAllowedId at h
  split at h
  · next hmem => exact hmem
  · cases h

theorem getConversationTurn_congr (hb : Belongs ctx db) (hb' : Belongs ctx db')
    (h : Agree ctx db db') (turnId : TurnId) :
    getConversationTurn ctx db turnId = getConversationTurn ctx db' turnId := by
  unfold getConversationTurn
  cases hallowed : requireAllowedId turnId ctx.allowedContextTurnIds with
  | error e => rfl
  | ok u => rw [h.get_turn hb hb' (requireAllowedId_eq_ok hallowed)]

theorem getContextChain_congr (hb : Belongs ctx db) (hb' : Belongs ctx db') (h : Agree ctx db db')
    (chainId : ChainId) : getContextChain ctx db chainId = getContextChain ctx db' chainId := by
  unfold getContextChain
  cases hallowed : requireAllowedId chainId ctx.allowedContextChainIds with
  | error e => rfl
  | ok u => rw [h.get_chain hb hb' (requireAllowedId_eq_ok hallowed)]

theorem listContextChains_congr (h : Agree ctx db db') (q : ContextChainSearchQuery) :
    listContextChains ctx db q = listContextChains ctx db' q := by
  unfold listContextChains
  cases hscope : conversationScope ctx q.conversationId with
  | error e => rfl
  | ok conversationId =>
    cases hids : allowedIds q.chainIds ctx.allowedContextChainIds with
    | error e => rfl
    | ok chainIds =>
      obtain ⟨hall, -⟩ := allowedIds_eq_ok hids
      by_cases hnil : chainIds = []
      · subst hnil
        rfl
      · have hlist := h.listChains (q := { q with
          conversationId := some conversationId, chainIds := chainIds })
          (conversationScope_eq_ok hscope).1 rfl hall hnil
        simp only [Except.bind, bind, if_neg hnil, hlist]

theorem listContextChainNodes_congr (hb : Belongs ctx db) (hb' : Belongs ctx db')
    (h : Agree ctx db db') (q : ContextChainNodeSearchQuery) :
    listContextChainNodes ctx db q = listContextChainNodes ctx db' q := by
  unfold listContextChainNodes
  cases hscope : conversationScope ctx q.conversationId with
  | error e => rfl
  | ok conversationId =>
    cases hids : allowedIds (q.chainIds ++ q.chainId.toList) ctx.allowedContextChainIds with
    | error e => rfl
    | ok chainIds =>
      cases hturns : allowedIds (q.turnIds ++ q.turnId.toList) (historicalTurnIds ctx) with
      | error e => rfl
      | ok turnIds =>
        obtain ⟨hall, -⟩ := allowedIds_eq_ok hids
        obtain ⟨hallTurns, -⟩ := allowedIds_eq_ok hturns
        by_cases hnil : chainIds = [] ∨ turnIds = []
        · simp only [Except.bind, bind, if_pos hnil]
        · obtain ⟨hne, hne'⟩ := not_or.mp hnil
          have hlist := h.listNodes hb hb' (q := { q with
            conversationId := some conversationId, chainId := none, chainIds := chainIds,
            turnId := none, turnIds := turnIds })
            (conversationScope_eq_ok hscope).1 rfl hall hne
            (fun x hx => (Finset.mem_filter.mp (hallTurns x hx)).1) hne'
          simp only [Except.bind, bind, if_neg hnil, hlist]

theorem listContextChainResources_congr (hb : Belongs ctx db) (hb' : Belongs ctx db')
    (h : Agree ctx db db') (q : ContextChainResourceSearchQuery) :
    listContextChainResources ctx db q = listContextChainResources ctx db' q := by
  unfold listContextChainResources
  cases hscope : conversationScope ctx q.conversationId with
  | error e => rfl
  | ok conversationId =>
    cases hids : allowedIds (q.chainIds ++ q.chainId.toList) ctx.allowedContextChainIds with
    | error e => rfl
    | ok chainIds =>
      obtain ⟨hall, -⟩ := allowedIds_eq_ok hids
      by_cases hnil : chainIds = []
      · subst hnil
        rfl
      · have hlist := h.listResources hb hb' (q := { q with
          conversationId := some conversationId, chainId := none, chainIds := chainIds })
          (conversationScope_eq_ok hscope).1 rfl hall hnil
        simp only [Except.bind, bind, if_neg hnil, hlist]

/-- A list of turns none of which has an admitted status is empty. -/
theorem listTurns_of_statuses {q : ConversationTurnSearchQuery} (hne : q.turnStatuses ≠ [])
    (hnone : ∀ status, turnStatusValue status ∉ q.turnStatuses) (db : QueryTables) :
    db.turns.select (turnMatches q) = [] := by
  rw [Table.select, List.filter_eq_nil_iff]
  intro t _
  rw [decide_eq_true_eq]
  rintro ⟨-, -, hst, -⟩
  exact hnone t.status (oneOf_of_ne hne hst)

theorem requireService_eq_ok {services : ContextToolServices} {useCase : Bool} {u : Unit}
    (h : requireService services useCase = .ok u) : useCase = true ∨ services.queryService = true := by
  unfold requireService at h
  split at h
  · next hor => exact hor
  · cases h

/-- Turns are listed from the Read Set, unless the request is unrestricted. -/
theorem listConversationTurns_congr (h : Agree ctx db db') (q : ConversationTurnSearchQuery)
    (hpermission : contextReadPermission ∈ ctx.permissions)
    (hun : ¬ Unrestricted ctx (.listConversationTurns q)) :
    listConversationTurns ctx db q = listConversationTurns ctx db' q := by
  unfold listConversationTurns
  cases hscope : conversationScope ctx q.conversationId with
  | error e => rfl
  | ok conversationId =>
    cases hids : allowedIds q.turnIds ctx.allowedContextTurnIds with
    | error e => rfl
    | ok turnIds =>
      cases hservice : requireService ctx.services ctx.services.listConversationTurns with
      | error e => rfl
      | ok u =>
        obtain ⟨hall, hempty⟩ := allowedIds_eq_ok hids
        obtain ⟨hconv, hrequested⟩ := conversationScope_eq_ok hscope
        by_cases hnil : turnIds = []
        · -- no status is admitted, since everything else is as in an unrestricted request
          obtain ⟨hnone, hallowed⟩ := hempty.mp hnil
          have hstatuses : ¬ (q.turnStatuses = [] ∨
              ∃ status, turnStatusValue status ∈ q.turnStatuses) := fun hst =>
            hun ⟨hpermission, requireService_eq_ok hservice, ⟨conversationId, hconv, hrequested⟩,
              hnone, hallowed, hst⟩
          obtain ⟨hne, hno⟩ := not_or.mp hstatuses
          have hselect := listTurns_of_statuses (q := { q with
            conversationId := some conversationId, turnIds := turnIds }) hne
            fun status hst => hno ⟨status, hst⟩
          simp only [Except.bind, bind, QueryTables.listTurns, hselect]
        · have hlist := h.listTurns (q := { q with
            conversationId := some conversationId, turnIds := turnIds }) hconv rfl hall hnil
          simp only [Except.bind, bind, hlist]

/-- The handlers answer with the permission error, or with what their tools say. -/
theorem answer_congr (hb : Belongs ctx db) (hb' : Belongs ctx db') (h : Agree ctx db db')
    {request : ContextRequest} (hun : ¬ Unrestricted ctx request) :
    answer ctx db request = answer ctx db' request := by
  cases request with
  | getConversationTurn turnId =>
    simp only [answer, getConversationTurn_congr hb hb' h]
  | getContextChain chainId =>
    simp only [answer, getContextChain_congr hb hb' h]
  | listContextChains q =>
    simp only [answer, listContextChains_congr h]
  | listContextChainNodes q =>
    simp only [answer, listContextChainNodes_congr hb hb' h]
  | listContextChainResources q =>
    simp only [answer, listContextChainResources_congr hb hb' h]
  | listConversationTurns q =>
    by_cases hpermission : contextReadPermission ∈ ctx.permissions
    · simp only [answer, listConversationTurns_congr h q hpermission hun]
    · simp only [answer, listHandler,
        executeAuditedToolCall_denied (List.mem_singleton_self _) hpermission]

/-! ## Requests without restriction -/

theorem TimeRange.exists_contains (w : TimeRange) : ∃ t, w.contains t := by
  cases hstart : w.start with
  | some f =>
    refine ⟨f, fun x hx => ?_, w.valid f hstart⟩
    rw [hstart] at hx
    exact (Option.some.inj hx).ge
  | none =>
    cases hstop : w.stop with
    | some e =>
      refine ⟨e, fun x hx => ?_, fun x hx => ?_⟩
      · rw [hstart] at hx
        cases hx
      · rw [hstop] at hx
        exact (Option.some.inj hx).le
    | none =>
      refine ⟨0, fun x hx => ?_, fun x hx => ?_⟩
      · rw [hstart] at hx
        cases hx
      · rw [hstop] at hx
        cases hx

theorem TimeRange.containsSome_of (w : TimeRange) {t : Time} (h : w.contains t) :
    w.containsSome (some t) :=
  ⟨fun f hf => ⟨t, rfl, h.1 f hf⟩, fun e he => ⟨t, rfl, h.2 e he⟩⟩

/-- The number of turns found by a listing. -/
def ContextAnswer.turnTotal : ContextAnswer → Option Nat
  | .turns output => some output.total
  | _ => none

/-- **An unrestricted request counts all turns of the conversation that its filters admit.** -/
theorem turnTotal_of_unrestricted {q : ConversationTurnSearchQuery}
    (hun : Unrestricted ctx (.listConversationTurns q)) :
    ∃ conversationId, ctx.conversationId = some conversationId ∧
      ∀ db, (answer ctx db (.listConversationTurns q)).turnTotal = some (db.turns.select
        (turnMatches { q with conversationId := some conversationId, turnIds := [] })).length := by
  obtain ⟨hpermission, hservice, ⟨conversationId, hconv, hrequested⟩, hnone, hallowed, -⟩ := hun
  refine ⟨conversationId, hconv, fun db => ?_⟩
  have hscope : conversationScope ctx q.conversationId = .ok conversationId := by
    simp only [conversationScope, hconv, if_pos hrequested]
  have hids : allowedIds q.turnIds ctx.allowedContextTurnIds = .ok [] := by
    rw [hnone, hallowed]
    simp [allowedIds, PyString.fromKeys]
  have hrequire : requireService ctx.services ctx.services.listConversationTurns = .ok () :=
    if_pos hservice
  have hgranted : ∀ p ∈ [contextReadPermission], p ∈ ctx.permissions := by
    intro p hp
    rw [List.mem_singleton.mp hp]
    exact hpermission
  simp only [answer, listHandler, executeAuditedToolCall_granted hgranted, listConversationTurns,
    hscope, hids, hrequire, Except.bind, bind, pure, Except.pure, Except.mapError]
  rfl

/-- A turn that the filters admit. -/
theorem exists_turn {q : ConversationTurnSearchQuery}
    (hst : q.turnStatuses = [] ∨ ∃ status, turnStatusValue status ∈ q.turnStatuses)
    (conversationId : ConversationId) :
    ∃ t, turnMatches { q with conversationId := some conversationId, turnIds := [] } t := by
  obtain ⟨created, hcreated⟩ := q.created.exists_contains
  obtain ⟨completed, hcompleted⟩ := q.completed.exists_contains
  have hstatus : ∃ status, oneOf q.turnStatuses (turnStatusValue status) := by
    rcases hst with hnil | ⟨status, hmem⟩
    · exact ⟨.completed, .inl hnil⟩
    · exact ⟨status, .inr hmem⟩
  obtain ⟨status, hstatus⟩ := hstatus
  refine ⟨⟨⟨0, conversationId, status, [], none, none, none, none, some completed⟩, "", created⟩, ?_,
    .inl rfl, hstatus, hcreated, q.completed.containsSome_of hcompleted⟩
  intro c hc
  exact Option.some.inj hc

theorem not_confined_of_unrestricted {request : ContextRequest} (hun : Unrestricted ctx request) :
    ¬ Confined ctx request := by
  cases request with
  | listConversationTurns q =>
    intro hconfined
    obtain ⟨conversationId, hconv, htotal⟩ := turnTotal_of_unrestricted hun
    obtain ⟨-, -, -, -, hallowed, hst⟩ := hun
    obtain ⟨t, ht⟩ := exists_turn hst conversationId
    have hanswer := hconfined ⟨.empty, .empty, .empty, .empty⟩ ⟨.single t, .empty, .empty, .empty⟩
      ⟨fun t ht => absurd ht (Table.not_mem_empty t), fun c hc => absurd hc (Table.not_mem_empty c)⟩
      ⟨fun t _ hin => by simp [hallowed] at hin, fun c hc => absurd hc (Table.not_mem_empty c)⟩
      ⟨fun t _ hin => by simp [hallowed] at hin, fun _ _ _ => Iff.rfl, fun _ _ _ _ => Iff.rfl,
        fun _ _ _ => Iff.rfl⟩
    have heq := congrArg ContextAnswer.turnTotal hanswer
    rw [htotal, htotal] at heq
    simp [Table.select, Table.empty, Table.single, ht] at heq
  | _ => exact hun.elim

/-- **A request is confined to the Read Set exactly when it is not an unrestricted listing of
turns.** -/
theorem confined_iff (ctx : AgentToolContext) (request : ContextRequest) :
    Confined ctx request ↔ ¬ Unrestricted ctx request :=
  ⟨fun hconfined hun => not_confined_of_unrestricted hun hconfined,
    fun hun _ _ hb hb' h => answer_congr hb hb' h hun⟩

end ReadSet

/-! An agent that may read no turns, and a conversation with one turn. -/

def TimeRange.always : TimeRange := ⟨none, none, fun _ h => by cases h⟩

def PageRange.default : PageRange := ⟨50, 0, by decide, by decide⟩

def noReadSet : AgentToolContext :=
  { conversationId := some 1, turnId := none, permissions := {contextReadPermission}
    services := ⟨true, true, true, true, true, true, true⟩
    allowedContextChainIds := ∅, allowedContextTurnIds := ∅ }

def allTurns : ConversationTurnSearchQuery :=
  { conversationId := none, turnIds := [], turnStatuses := [], created := .always
    completed := .always, page := .default }

def foreignTurn : TurnRow :=
  { turnId := 5, conversationId := 1, status := .completed, taskIds := [], clarificationInput := none
    assistantContent := some "answer", assistantCompact := none, taskResultSummary := none
    completedAt := none, userInput := "question", createdAt := 3 }

/-- **An agent without a Read Set lists the turns of its conversation.** -/
theorem readSet_leaks : ¬ ∀ (ctx : AgentToolContext) (request : ContextRequest),
    Confined ctx request := by
  intro hall
  have hanswer := hall noReadSet (.listConversationTurns allTurns)
    ⟨.empty, .empty, .empty, .empty⟩ ⟨.single foreignTurn, .empty, .empty, .empty⟩
    ⟨by simp, by simp⟩ ⟨by simp [noReadSet], by simp⟩
    ⟨by simp [noReadSet], by simp, by simp, by simp⟩
  exact absurd hanswer (by decide +kernel)

end DocFlow.Context
