import DocFlow.Context.CompleteTurn
import DocFlow.Context.Selection
import DocFlow.Lib.Listing
import DocFlow.Lib.PyString
import Mathlib.Data.Prod.Lex

/-!
# Selecting the context of a message

`ContextService.send_message` creates a turn, has the router choose the chains to be read, and
persists the choice, in three transactions under the lock of the conversation.  The lock is released
when the body has ended, and a release that finds the lock expired raises in place of whatever the
body ended with.

A call is a value here: what the lock, the router, the cache and the database answer to it, and what
other processes do to the database meanwhile (`OtherWork`).  A transaction that fails leaves the
database as it was.

The call keeps its promise exactly when it is not `Stranded`: the handler that is meant for a lock
that could not be had also catches the expiry of one that was held, and re-raises it with the turn as
it stands.
-/

namespace DocFlow.Context

/-- `ContextSelectionDecision`. -/
structure ContextSelectionDecision where
  relevantChainIds : List ChainId
  reasonSummary : String
deriving DecidableEq, Repr

/-- A chain as the router sees it: its row, and the hot resources read for it. -/
structure LoadedChain where
  chain : ContextChain
  resourceQueue : List ContextResourceRef
deriving DecidableEq, Repr

structure ContextSelectionResult where
  conversationId : ConversationId
  turnId : TurnId
  message : String
  contextChains : List LoadedChain
  decision : ContextSelectionDecision
deriving DecidableEq, Repr

/-- The exceptions that leave the call. -/
inductive SelectionError
  /-- `ConversationLockUnavailable` -/
  | lockUnavailable (message : String)
  /-- `ContextRoutingError` -/
  | routing (message : String)
  | failed (failure : Failure)
  /-- an exception of Redis or of the database -/
  | infrastructure
deriving DecidableEq, Repr

/-! ## What happens around the call -/

/-- Work of other processes, which leaves the turn and its selection record alone. -/
def OtherWork (turnId : TurnId) : Type :=
  { work : Db → Db // ∀ db,
    (work db).conversationTurns.get? turnId = db.conversationTurns.get? turnId ∧
    (work db).context.selections.get? turnId = db.context.selections.get? turnId }

/-- How `lock.acquire` ends. -/
inductive Acquire
  | acquired | unavailable | raised
deriving DecidableEq, Repr

/-- How `lock.release` ends; `expired` is a `LockError`. -/
inductive Release
  | released | expired | raised
deriving DecidableEq, Repr

/-- A call, with all that its surroundings answer. -/
structure SendCall where
  turnId : TurnId
  conversationId : ConversationId
  message : String
  routerConfigured : Bool
  acquire : Acquire
  /-- the transaction that creates the turn fails -/
  createRaises : Bool
  /-- `get_queue`; `none` is an exception -/
  queue : ContextChain → Option (List ContextResourceRef)
  /-- `route`; `none` is an exception -/
  decision : Option ContextSelectionDecision
  /-- the transaction that persists the selection fails -/
  persistRaises : Bool
  release : Release
  whileWaiting : OtherWork turnId
  whileRouting : OtherWork turnId
  whileReleasing : OtherWork turnId
  whileFailing : OtherWork turnId

/-! ## The validation -/

/-- The checks on the candidate chains. -/
def checkCandidates (conversationId : ConversationId) : List ChainId → List LoadedChain →
    Except String Unit
  | _, [] => .ok ()
  | seen, c :: chains =>
    if c.chain.conversationId ≠ conversationId then
      .error ("Context chain belongs to another conversation: " ++ toString c.chain.chainId)
    else if c.chain.chainId ∈ seen then
      .error ("Duplicate context chain: " ++ toString c.chain.chainId)
    else checkCandidates conversationId (seen ++ [c.chain.chainId]) chains

def findChain (chains : List LoadedChain) (chainId : ChainId) : Option LoadedChain :=
  chains.find? fun c => c.chain.chainId = chainId

/-- The checks on the chains selected. -/
def checkSelected (chains : List LoadedChain) : List ChainId → Except String Unit
  | [] => .ok ()
  | chainId :: chainIds =>
    match findChain chains chainId with
    | none => .error ("Context Agent selected unknown chain: " ++ toString chainId)
    | some c =>
      if c.chain.archived then
        .error ("Context Agent selected archived chain: " ++ toString chainId)
      else checkSelected chains chainIds

/-- `validate_context_selection`; the error is the text of a `ValueError`. -/
def validateContextSelection (decision : ContextSelectionDecision) (chains : List LoadedChain)
    (conversationId : ConversationId) : Except String ContextSelectionDecision := do
  checkCandidates conversationId [] chains
  let selected := PyString.fromKeys decision.relevantChainIds
  checkSelected chains selected
  return { decision with relevantChainIds := selected }

/-! ## The call -/

/-- `list_active_chains`. -/
def listActiveChains (conversationId : ConversationId) (t : ContextTables) : List ContextChain :=
  sortedBy (fun c : ContextChain => toLex (OrderDual.toDual c.lastActiveAt, c.chainId))
    (t.chains.select fun c => c.conversationId = conversationId ∧ c.archived = false)

/-- The hot resources of each chain. -/
def loadQueues (queue : ContextChain → Option (List ContextResourceRef)) :
    List ContextChain → Option (List LoadedChain)
  | [] => some []
  | c :: chains => do
    let resourceQueue ← queue c
    let loaded ← loadQueues queue chains
    return ⟨c, resourceQueue⟩ :: loaded

/-- The router is asked, and its choice is validated. -/
def chooseChains (c : SendCall) (chains : List LoadedChain) :
    Except SelectionError ContextSelectionDecision :=
  match c.decision with
  | none => .error (.routing "Context Agent Selection 失败")
  | some raw =>
    match validateContextSelection raw chains c.conversationId with
    | .error text => .error (.routing ("Context Agent 返回了非法 Selection: " ++ text))
    | .ok decision => .ok decision

/-- The transaction that persists the selection. -/
def persistSelection (c : SendCall) (decision : ContextSelectionDecision) (db : Db) :
    Except SelectionError Db :=
  if c.persistRaises then .error .infrastructure
  else (persistContextSelection c.turnId c.conversationId decision.relevantChainIds db).mapError
    .failed

/-- The body after the turn has been created on `db`. -/
def selectChains (c : SendCall) (db : Db) : Db × Except SelectionError ContextSelectionResult :=
  match loadQueues c.queue (listActiveChains c.conversationId db.context) with
  | none => (db, .error .infrastructure)
  | some chains =>
    match chooseChains c chains with
    | .error e => (c.whileRouting.1 db, .error e)
    | .ok decision =>
      match persistSelection c decision (c.whileRouting.1 db) with
      | .error e => (c.whileRouting.1 db, .error e)
      | .ok db' => (db', .ok {
          conversationId := c.conversationId
          turnId := c.turnId
          message := c.message
          contextChains := decision.relevantChainIds.filterMap (findChain chains)
          decision := decision })

/-- What the body leaves: the database, whether the turn has been created, and how it ends. -/
structure BodyEnd where
  db : Db
  turnCreated : Bool
  result : Except SelectionError ContextSelectionResult

/-- The body of `async with`. -/
def selectionBody (c : SendCall) (db : Db) : BodyEnd :=
  if c.createRaises then ⟨db, false, .error .infrastructure⟩
  else
    match createTurn c.turnId c.conversationId db with
    | .error f => ⟨db, false, .error (.failed f)⟩
    | .ok db => ⟨(selectChains c db).1, true, (selectChains c db).2⟩

/-- `ConversationRouteLockManager.hold` around the body. -/
def holdLock (c : SendCall) (db : Db) : BodyEnd :=
  match c.acquire with
  | .unavailable => ⟨db, false, .error (.lockUnavailable
      ("Conversation route lock unavailable: " ++ toString c.conversationId))⟩
  | .raised => ⟨db, false, .error .infrastructure⟩
  | .acquired =>
    let body := selectionBody c (c.whileWaiting.1 db)
    let db := c.whileReleasing.1 body.db
    match c.release with
    | .released => ⟨db, body.turnCreated, body.result⟩
    | .expired => ⟨db, body.turnCreated, .error (.lockUnavailable
        ("Conversation route lock expired: " ++ toString c.conversationId))⟩
    | .raised => ⟨db, body.turnCreated, .error .infrastructure⟩

/-- `send_message`.  A lock error is raised again as it is; every other exception marks the turn. -/
def sendMessage (c : SendCall) (db : Db) : Db × Except SelectionError ContextSelectionResult :=
  if ¬ c.routerConfigured then (db, .error (.failed (.runtimeError "Context Agent Router 未配置")))
  else
    let held := holdLock c db
    match held.result with
    | .ok result => (held.db, .ok result)
    | .error (.lockUnavailable message) => (held.db, .error (.lockUnavailable message))
    | .error e =>
      if held.turnCreated then (markTurnFailed c.turnId (c.whileFailing.1 held.db), .error e)
      else (held.db, .error e)

/-! ## The promise -/

/-- The database once the turn has been created. -/
def createdOn (c : SendCall) (db : Db) : Db :=
  match createTurn c.turnId c.conversationId (c.whileWaiting.1 db) with
  | .ok db' => db'
  | .error _ => c.whileWaiting.1 db

/-- The chain is an unarchived one of the conversation. -/
def ActiveIn (conversationId : ConversationId) (db : Db) (chainId : ChainId) : Prop :=
  ∃ chain, db.context.chains.get? chainId = some chain ∧ chain.conversationId = conversationId ∧
    chain.archived = false

/-- No half-made turn is left: when the call returns, the turn is ready, with the router's choice
without its repetitions, of chains that are active at the commit; when it raises, there is no turn,
or it is failed and has no selection. -/
def LeavesNoHalfMadeTurn (c : SendCall) (db : Db) : Prop :=
  match sendMessage c db with
  | (db', .ok result) =>
    (∃ t, db'.conversationTurns.get? c.turnId = some t ∧ t.status = .contextReady) ∧
    (∃ raw, c.decision = some raw ∧
      result.decision.relevantChainIds = PyString.fromKeys raw.relevantChainIds) ∧
    db'.context.selections.get? c.turnId =
      some ⟨c.conversationId, c.turnId, result.decision.relevantChainIds⟩ ∧
    ∀ chainId ∈ result.decision.relevantChainIds,
      ActiveIn c.conversationId (c.whileRouting.1 (createdOn c db)) chainId
  | (db', .error _) =>
    db'.conversationTurns.get? c.turnId = none ∨
      ∃ t, db'.conversationTurns.get? c.turnId = some t ∧ t.status = .failed ∧
        db'.context.selections.get? c.turnId = none

/-- The turn gets created. -/
def Creates (c : SendCall) : Prop :=
  c.routerConfigured = true ∧ c.acquire = .acquired ∧ c.createRaises = false

/-- The selection gets persisted: no read of a cache raises, the router chooses chains that were
active when the turn was created and still are, and the last transaction does not fail. -/
def Selects (c : SendCall) (db : Db) : Prop :=
  (∀ chain ∈ listActiveChains c.conversationId (c.whileWaiting.1 db).context,
    (c.queue chain).isSome) ∧
  c.persistRaises = false ∧
  ∃ raw, c.decision = some raw ∧ ∀ chainId ∈ raw.relevantChainIds,
    ActiveIn c.conversationId (c.whileWaiting.1 db) chainId ∧
      ActiveIn c.conversationId (c.whileRouting.1 (createdOn c db)) chainId

/-- The lock has expired when it is released, or its release raises although the selection has been
persisted. -/
def Stranded (c : SendCall) (db : Db) : Prop :=
  Creates c ∧ (c.release = .expired ∨ c.release = .raised ∧ Selects c db)

/-! ## The parts of the body -/

section Body

variable {c : SendCall} {db db' : Db}

theorem mem_listActiveChains {conversationId : ConversationId} {t : ContextTables}
    {chain : ContextChain} : chain ∈ listActiveChains conversationId t ↔
      chain ∈ t.chains ∧ chain.conversationId = conversationId ∧ chain.archived = false := by
  rw [listActiveChains, mem_sortedBy, Table.mem_select]

theorem exists_active_iff {conversationId : ConversationId} {chainId : ChainId} :
    (∃ chain ∈ listActiveChains conversationId db.context, chain.chainId = chainId) ↔
      ActiveIn conversationId db chainId := by
  constructor
  · rintro ⟨chain, hmem, rfl⟩
    obtain ⟨hin, hconv, harchived⟩ := mem_listActiveChains.mp hmem
    exact ⟨chain, Table.get?_of_mem hin, hconv, harchived⟩
  · rintro ⟨chain, hget, hconv, harchived⟩
    obtain ⟨hin, hid⟩ := Table.get?_eq_some.mp hget
    exact ⟨chain, mem_listActiveChains.mpr ⟨hin, hconv, harchived⟩, hid⟩

theorem nodup_listActiveChains (conversationId : ConversationId) (t : ContextTables) :
    ((listActiveChains conversationId t).map ContextChain.chainId).Nodup := by
  have hperm := (sortedBy_perm (fun c : ContextChain =>
    toLex (OrderDual.toDual c.lastActiveAt, c.chainId)) (t.chains.select fun c =>
      c.conversationId = conversationId ∧ c.archived = false)).map ContextChain.chainId
  rw [listActiveChains, hperm.nodup_iff]
  exact t.chains.nodup.sublist (List.filter_sublist.map _)

theorem loadQueues_chains {queue : ContextChain → Option (List ContextResourceRef)}
    {chains : List ContextChain} {loaded : List LoadedChain}
    (h : loadQueues queue chains = some loaded) : loaded.map LoadedChain.chain = chains := by
  induction chains generalizing loaded with
  | nil =>
    obtain rfl := Option.some.inj h
    rfl
  | cons c chains ih =>
    simp only [loadQueues, Option.bind_eq_bind, Option.bind_eq_some_iff] at h
    obtain ⟨resourceQueue, -, rest, hrest, h⟩ := h
    obtain rfl := Option.some.inj h
    rw [List.map_cons, ih hrest]

theorem loadQueues_isSome {queue : ContextChain → Option (List ContextResourceRef)}
    {chains : List ContextChain} :
    (loadQueues queue chains).isSome ↔ ∀ c ∈ chains, (queue c).isSome := by
  induction chains with
  | nil => simp [loadQueues]
  | cons c chains ih =>
    rw [List.forall_mem_cons, ← ih]
    cases hq : queue c with
    | none => simp [loadQueues, hq]
    | some q =>
      cases hl : loadQueues queue chains with
      | none => simp [loadQueues, hq, hl]
      | some l => simp [loadQueues, hq, hl]

theorem checkCandidates_eq_ok {conversationId : ConversationId} {seen : List ChainId}
    {chains : List LoadedChain} (hconv : ∀ c ∈ chains, c.chain.conversationId = conversationId)
    (hnodup : (seen ++ chains.map fun c => c.chain.chainId).Nodup) :
    checkCandidates conversationId seen chains = .ok () := by
  induction chains generalizing seen with
  | nil => rfl
  | cons c chains ih =>
    have hnew : c.chain.chainId ∉ seen := by
      intro hin
      have hdisjoint := (List.nodup_append.mp hnodup).2.2
      exact hdisjoint _ hin _ List.mem_cons_self rfl
    rw [checkCandidates, if_neg (not_not.mpr (hconv c List.mem_cons_self)), if_neg hnew]
    apply ih fun x hx => hconv x (List.mem_cons_of_mem _ hx)
    rw [List.append_assoc]
    exact hnodup

theorem checkSelected_eq_ok {chains : List LoadedChain} {ids : List ChainId} :
    checkSelected chains ids = .ok () ↔
      ∀ chainId ∈ ids, ∃ c, findChain chains chainId = some c ∧ c.chain.archived = false := by
  induction ids with
  | nil => simp [checkSelected]
  | cons chainId ids ih =>
    rw [checkSelected, List.forall_mem_cons, ← ih]
    cases hfind : findChain chains chainId with
    | none => simp
    | some c =>
      cases harchived : c.chain.archived with
      | true => simp [harchived]
      | false => simp [harchived]

theorem findChain_isSome {chains : List LoadedChain} {chainId : ChainId} :
    (∃ c, findChain chains chainId = some c) ↔ ∃ c ∈ chains, c.chain.chainId = chainId := by
  rw [findChain, ← Option.isSome_iff_exists, List.find?_isSome]
  simp

theorem mem_of_findChain {chains : List LoadedChain} {chainId : ChainId} {x : LoadedChain}
    (h : findChain chains chainId = some x) : x ∈ chains :=
  List.mem_of_find?_eq_some h

/-- Among the chains that were loaded as active, the validation admits exactly these. -/
theorem validateContextSelection_eq_ok {raw decision : ContextSelectionDecision}
    {conversationId : ConversationId} {queue : ContextChain → Option (List ContextResourceRef)}
    {chains : List LoadedChain}
    (hload : loadQueues queue (listActiveChains conversationId db.context) = some chains) :
    validateContextSelection raw chains conversationId = .ok decision ↔
      decision = { raw with relevantChainIds := PyString.fromKeys raw.relevantChainIds } ∧
        ∀ chainId ∈ raw.relevantChainIds, ActiveIn conversationId db chainId := by
  have hchains := loadQueues_chains hload
  have hactive : ∀ x ∈ chains, x.chain ∈ listActiveChains conversationId db.context := by
    intro x hx
    rw [← hchains]
    exact List.mem_map_of_mem hx
  have hcandidates : checkCandidates conversationId [] chains = .ok () := by
    apply checkCandidates_eq_ok fun x hx => (mem_listActiveChains.mp (hactive x hx)).2.1
    have hnodup := nodup_listActiveChains conversationId db.context
    rw [← hchains, List.map_map] at hnodup
    exact hnodup
  have hselected : checkSelected chains (PyString.fromKeys raw.relevantChainIds) = .ok () ↔
      ∀ chainId ∈ raw.relevantChainIds, ActiveIn conversationId db chainId := by
    rw [checkSelected_eq_ok]
    apply forall_congr'
    intro chainId
    rw [PyString.mem_fromKeys, ← exists_active_iff, ← hchains]
    apply imp_congr_right
    intro _
    constructor
    · rintro ⟨x, hfind, -⟩
      obtain ⟨y, hy, hid⟩ := findChain_isSome.mp ⟨x, hfind⟩
      exact ⟨y.chain, List.mem_map_of_mem hy, hid⟩
    · rintro ⟨chain, hmem, hid⟩
      obtain ⟨y, hy, rfl⟩ := List.mem_map.mp hmem
      obtain ⟨x, hfind⟩ := findChain_isSome.mpr ⟨y, hy, hid⟩
      exact ⟨x, hfind, (mem_listActiveChains.mp (hactive x (mem_of_findChain hfind))).2.2⟩
  rw [← hselected]
  cases hsel : checkSelected chains (PyString.fromKeys raw.relevantChainIds) with
  | error text => simp [validateContextSelection, hcandidates, hsel, bind, Except.bind]
  | ok u =>
    simp [validateContextSelection, hcandidates, hsel, bind, Except.bind, pure, Except.pure,
      eq_comm]

theorem checkSelectedChains_eq_ok {conversationId : ConversationId} {ids : List ChainId} :
    checkSelectedChains conversationId db.context ids = .ok () ↔
      ∀ chainId ∈ ids, ActiveIn conversationId db chainId := by
  induction ids with
  | nil => simp [checkSelectedChains]
  | cons chainId ids ih =>
    rw [List.forall_mem_cons, ← ih]
    simp only [checkSelectedChains, bind_eq_ok, orRaise_eq_ok, ensure_eq_ok, ActiveIn]
    constructor
    · rintro ⟨chain, hget, _, hconv, _, harchived, hrest⟩
      exact ⟨⟨chain, hget, hconv, harchived⟩, hrest⟩
    · rintro ⟨⟨chain, hget, hconv, harchived⟩, hrest⟩
      exact ⟨chain, hget, (), hconv, (), harchived, hrest⟩

/-- The turn is in routing, and has no selection yet. -/
def Awaiting (c : SendCall) (db : Db) : Prop :=
  db.conversationTurns.get? c.turnId = some (routingTurn c.turnId c.conversationId) ∧
    db.context.selections.get? c.turnId = none

/-- The turn is ready, and has this selection. -/
def Settled (c : SendCall) (ids : List ChainId) (db : Db) : Prop :=
  (∃ t, db.conversationTurns.get? c.turnId = some t ∧ t.status = .contextReady) ∧
    db.context.selections.get? c.turnId = some ⟨c.conversationId, c.turnId, ids⟩

theorem Awaiting.after (h : Awaiting c db) (work : OtherWork c.turnId) : Awaiting c (work.1 db) := by
  obtain ⟨hturn, hselection⟩ := work.2 db
  exact ⟨hturn.trans h.1, hselection.trans h.2⟩

theorem Settled.after {ids : List ChainId} (h : Settled c ids db) (work : OtherWork c.turnId) :
    Settled c ids (work.1 db) := by
  obtain ⟨hturn, hselection⟩ := work.2 db
  obtain ⟨⟨t, hget, hst⟩, hrow⟩ := h
  exact ⟨⟨t, hturn.trans hget, hst⟩, hselection.trans hrow⟩

theorem Awaiting.marked (h : Awaiting c db) :
    (∃ t, (markTurnFailed c.turnId db).conversationTurns.get? c.turnId = some t ∧
      t.status = .failed) ∧ (markTurnFailed c.turnId db).context.selections.get? c.turnId = none := by
  obtain ⟨hturn, hselection⟩ := h
  rw [markTurnFailed, hturn]
  refine ⟨⟨_, Table.get?_save_self (Table.mem_of_get? hturn) rfl, rfl⟩, hselection⟩

theorem Settled.marked {ids : List ChainId} (h : Settled c ids db) :
    Settled c ids (markTurnFailed c.turnId db) := by
  obtain ⟨⟨t, hget, hst⟩, -⟩ := id h
  rw [markTurnFailed, hget]
  simp only [hst]
  exact h

theorem persistContextSelection_ok {ids : List ChainId} (h : Awaiting c db) :
    (∃ db', persistContextSelection c.turnId c.conversationId ids db = .ok db') ↔
      ∀ chainId ∈ ids, ActiveIn c.conversationId db chainId := by
  obtain ⟨hturn, hselection⟩ := h
  rw [← checkSelectedChains_eq_ok]
  simp only [persistContextSelection, bind_eq_ok, orRaise_eq_ok, ensure_eq_ok, pure_eq_ok]
  constructor
  · rintro ⟨_, _, -, _, -, _, -, _, hchecked, -⟩
    exact hchecked
  · intro hchecked
    obtain ⟨selections, hinsert⟩ := Table.exists_insert
      (t := db.context.selections) (r := ⟨c.conversationId, c.turnId, ids⟩)
      (Table.get?_eq_none.mp hselection)
    exact ⟨_, _, hturn, (), rfl, (), rfl, (), hchecked, selections, hinsert, rfl⟩

theorem persistContextSelection_settled {ids : List ChainId} (h : Awaiting c db)
    (hok : persistContextSelection c.turnId c.conversationId ids db = .ok db') :
    Settled c ids db' := by
  obtain ⟨hturn, -⟩ := h
  simp only [persistContextSelection, bind_eq_ok, orRaise_eq_ok, ensure_eq_ok, pure_eq_ok] at hok
  obtain ⟨turn, hget, _, -, _, -, _, -, selections, hinsert, rfl⟩ := hok
  obtain rfl := Option.some.inj (hturn.symm.trans hget)
  refine ⟨⟨_, Table.get?_save_self (Table.mem_of_get? hget) rfl, rfl⟩, ?_⟩
  exact Table.get?_of_mem ((Table.mem_insert hinsert).mpr (.inr rfl))

theorem chooseChains_eq_ok {chains : List LoadedChain} {decision : ContextSelectionDecision}
    (hload : loadQueues c.queue (listActiveChains c.conversationId db.context) = some chains) :
    chooseChains c chains = .ok decision ↔ ∃ raw, c.decision = some raw ∧
      decision = { raw with relevantChainIds := PyString.fromKeys raw.relevantChainIds } ∧
        ∀ chainId ∈ raw.relevantChainIds, ActiveIn c.conversationId db chainId := by
  unfold chooseChains
  cases hraw : c.decision with
  | none => simp
  | some raw =>
    simp only [Option.some.injEq, exists_eq_left']
    rw [← validateContextSelection_eq_ok hload]
    cases validateContextSelection raw chains c.conversationId with
    | error text => simp
    | ok d => simp

/-- An error of the body is none of the lock. -/
theorem chooseChains_error {chains : List LoadedChain} {e : SelectionError}
    (h : chooseChains c chains = .error e) : ∃ text, e = .routing text := by
  unfold chooseChains at h
  split at h
  · obtain rfl := Except.error.inj h
    exact ⟨_, rfl⟩
  · split at h
    · obtain rfl := Except.error.inj h
      exact ⟨_, rfl⟩
    · cases h

/-- `Selects`, with the turn created on `db`. -/
def Persists (c : SendCall) (db : Db) : Prop :=
  (∀ chain ∈ listActiveChains c.conversationId db.context, (c.queue chain).isSome) ∧
  c.persistRaises = false ∧
  ∃ raw, c.decision = some raw ∧ ∀ chainId ∈ raw.relevantChainIds,
    ActiveIn c.conversationId db chainId ∧ ActiveIn c.conversationId (c.whileRouting.1 db) chainId

/-- What a body that persists the selection leaves. -/
def Chosen (c : SendCall) (db : Db) (result : ContextSelectionResult) (db' : Db) : Prop :=
  (∃ raw, c.decision = some raw ∧
    result.decision.relevantChainIds = PyString.fromKeys raw.relevantChainIds) ∧
  Settled c result.decision.relevantChainIds db' ∧
  ∀ chainId ∈ result.decision.relevantChainIds,
    ActiveIn c.conversationId (c.whileRouting.1 db) chainId

theorem persistSelection_eq_ok {decision : ContextSelectionDecision} :
    persistSelection c decision db = .ok db' ↔ c.persistRaises = false ∧
      persistContextSelection c.turnId c.conversationId decision.relevantChainIds db = .ok db' := by
  unfold persistSelection
  cases c.persistRaises with
  | true => simp
  | false =>
    cases persistContextSelection c.turnId c.conversationId decision.relevantChainIds db with
    | error f => simp [Except.mapError]
    | ok d => simp [Except.mapError]

theorem persistSelection_error {decision : ContextSelectionDecision} {e : SelectionError}
    (h : persistSelection c decision db = .error e) : ∀ message, e ≠ .lockUnavailable message := by
  rintro message rfl
  unfold persistSelection at h
  split at h
  · cases h
  · cases hp : persistContextSelection c.turnId c.conversationId decision.relevantChainIds db with
    | error f =>
      rw [hp] at h
      cases h
    | ok d =>
      rw [hp] at h
      cases h

theorem selectChains_ok (hawait : Awaiting c db) (hp : Persists c db) :
    ∃ result, (selectChains c db).2 = .ok result ∧ Chosen c db result (selectChains c db).1 := by
  obtain ⟨hqueues, hraises, raw, hraw, hactive⟩ := hp
  obtain ⟨chains, hload⟩ := Option.isSome_iff_exists.mp (loadQueues_isSome.mpr hqueues)
  have hchoose := (chooseChains_eq_ok hload).mpr ⟨raw, hraw, rfl, fun id hid => (hactive id hid).1⟩
  have hstill : ∀ chainId ∈ PyString.fromKeys raw.relevantChainIds,
      ActiveIn c.conversationId (c.whileRouting.1 db) chainId := by
    intro chainId hid
    exact (hactive chainId (PyString.mem_fromKeys.mp hid)).2
  have hafter := hawait.after c.whileRouting
  obtain ⟨db', hpersist⟩ := (persistContextSelection_ok hafter).mpr hstill
  have hsaved : persistSelection c
      { raw with relevantChainIds := PyString.fromKeys raw.relevantChainIds }
      (c.whileRouting.1 db) = .ok db' := persistSelection_eq_ok.mpr ⟨hraises, hpersist⟩
  simp only [selectChains, hload, hchoose, hsaved]
  exact ⟨_, rfl, ⟨raw, hraw, rfl⟩, persistContextSelection_settled hafter hpersist, hstill⟩

theorem selectChains_error (hawait : Awaiting c db) (hp : ¬ Persists c db) :
    ∃ e, (selectChains c db).2 = .error e ∧ (∀ message, e ≠ .lockUnavailable message) ∧
      Awaiting c (selectChains c db).1 := by
  cases hload : loadQueues c.queue (listActiveChains c.conversationId db.context) with
  | none =>
    simp only [selectChains, hload]
    exact ⟨_, rfl, by simp, hawait⟩
  | some chains =>
    cases hchoose : chooseChains c chains with
    | error e =>
      obtain ⟨text, rfl⟩ := chooseChains_error hchoose
      simp only [selectChains, hload, hchoose]
      exact ⟨_, rfl, by simp, hawait.after c.whileRouting⟩
    | ok decision =>
      cases hsaved : persistSelection c decision (c.whileRouting.1 db) with
      | error e =>
        simp only [selectChains, hload, hchoose, hsaved]
        exact ⟨_, rfl, persistSelection_error hsaved, hawait.after c.whileRouting⟩
      | ok db' =>
        exfalso
        obtain ⟨raw, hraw, rfl, hactive⟩ := (chooseChains_eq_ok hload).mp hchoose
        obtain ⟨hraises, hpersist⟩ := persistSelection_eq_ok.mp hsaved
        have hstill := (persistContextSelection_ok (hawait.after c.whileRouting)).mp ⟨_, hpersist⟩
        have hqueues := loadQueues_isSome.mp (Option.isSome_iff_exists.mpr ⟨_, hload⟩)
        refine hp ⟨hqueues, hraises, raw, hraw, fun chainId hid => ⟨hactive chainId hid, ?_⟩⟩
        exact hstill chainId (PyString.mem_fromKeys.mpr hid)

end Body

/-! ## The call -/

section Call

variable {c : SendCall} {db db' : Db} {e : SelectionError}

/-- The id is new: there is neither a turn nor a selection under it. -/
def Unused (turnId : TurnId) (db : Db) : Prop :=
  db.conversationTurns.get? turnId = none ∧ db.context.selections.get? turnId = none

theorem Unused.after (h : Unused c.turnId db) (work : OtherWork c.turnId) :
    Unused c.turnId (work.1 db) := by
  obtain ⟨hturn, hselection⟩ := work.2 db
  exact ⟨hturn.trans h.1, hselection.trans h.2⟩

theorem createTurn_unused (h : Unused c.turnId db) : ∃ db',
    createTurn c.turnId c.conversationId db = .ok db' ∧ Awaiting c db' ∧
      db'.context = db.context := by
  obtain ⟨turns, hinsert⟩ := Table.exists_insert (t := db.conversationTurns)
    (r := routingTurn c.turnId c.conversationId) (Table.get?_eq_none.mp h.1)
  refine ⟨db.setConversationTurns turns, ?_, ⟨?_, h.2⟩, rfl⟩
  · rw [createTurn, hinsert]
    rfl
  · exact Table.get?_of_mem ((Table.mem_insert hinsert).mpr (.inr rfl))

theorem createdOn_awaiting (h : Unused c.turnId db) : Awaiting c (createdOn c db) ∧
    (createdOn c db).context = (c.whileWaiting.1 db).context ∧
    createTurn c.turnId c.conversationId (c.whileWaiting.1 db) = .ok (createdOn c db) := by
  obtain ⟨db', hcreate, hawait, hcontext⟩ := createTurn_unused (h.after c.whileWaiting)
  have heq : createdOn c db = db' := by
    rw [createdOn, hcreate]
  rw [heq]
  exact ⟨hawait, hcontext, hcreate⟩

theorem selects_iff (h : Unused c.turnId db) : Selects c db ↔ Persists c (createdOn c db) := by
  obtain ⟨-, hcontext, -⟩ := createdOn_awaiting h
  unfold Selects Persists ActiveIn
  rw [hcontext]

/-- What holds of the database after a call that raises. -/
def Cleaned (c : SendCall) (db : Db) : Prop :=
  db.conversationTurns.get? c.turnId = none ∨
    ∃ t, db.conversationTurns.get? c.turnId = some t ∧ t.status = .failed ∧
      db.context.selections.get? c.turnId = none

theorem leaves_of_error (h : sendMessage c db = (db', .error e)) :
    LeavesNoHalfMadeTurn c db ↔ Cleaned c db' := by
  rw [LeavesNoHalfMadeTurn, h]
  rfl

theorem Awaiting.not_cleaned (h : Awaiting c db) : ¬ Cleaned c db := by
  rintro (hnone | ⟨t, hget, hst, -⟩)
  · rw [h.1] at hnone
    cases hnone
  · rw [h.1] at hget
    obtain rfl := Option.some.inj hget
    cases hst

theorem Settled.not_cleaned {ids : List ChainId} (h : Settled c ids db) : ¬ Cleaned c db := by
  rintro (hnone | ⟨t, -, -, hselection⟩)
  · obtain ⟨⟨t, hget, -⟩, -⟩ := h
    rw [hnone] at hget
    cases hget
  · rw [h.2] at hselection
    cases hselection

theorem Awaiting.cleaned (h : Awaiting c db) : Cleaned c (markTurnFailed c.turnId db) := by
  obtain ⟨⟨t, hget, hst⟩, hselection⟩ := h.marked
  exact .inr ⟨t, hget, hst, hselection⟩

/-! ### How the body ends -/

/-- A body that creates no turn raises. -/
theorem holdLock_uncreated (hnew : Unused c.turnId db) (hrouter : c.routerConfigured = true)
    (h : ¬ Creates c) : ∃ e, (holdLock c db).result = .error e ∧
      (holdLock c db).turnCreated = false ∧ Unused c.turnId (holdLock c db).db := by
  cases hacquire : c.acquire with
  | unavailable =>
    simp only [holdLock, hacquire]
    exact ⟨_, rfl, trivial, hnew⟩
  | raised =>
    simp only [holdLock, hacquire]
    exact ⟨_, rfl, trivial, hnew⟩
  | acquired =>
    have hraises : c.createRaises = true := by
      simpa [Creates, hrouter, hacquire] using h
    have hafter := (hnew.after c.whileWaiting).after c.whileReleasing
    simp only [holdLock, hacquire, selectionBody, hraises, if_true]
    cases c.release with
    | released => exact ⟨_, rfl, rfl, hafter⟩
    | expired => exact ⟨_, rfl, rfl, hafter⟩
    | raised => exact ⟨_, rfl, rfl, hafter⟩

theorem selectionBody_created (hnew : Unused c.turnId db) (h : Creates c) :
    selectionBody c (c.whileWaiting.1 db) =
      ⟨(selectChains c (createdOn c db)).1, true, (selectChains c (createdOn c db)).2⟩ := by
  obtain ⟨-, -, hcreate⟩ := createdOn_awaiting hnew
  have hraises := h.2.2
  simp [selectionBody, hraises, hcreate]

/-! ### How the call ends -/

theorem sendMessage_ok {result : ContextSelectionResult} (hrouter : c.routerConfigured = true)
    (h : (holdLock c db).result = .ok result) :
    sendMessage c db = ((holdLock c db).db, .ok result) := by
  simp [sendMessage, hrouter, h]

/-- A lock error leaves the turn as it stands. -/
theorem sendMessage_lock {message : String} (hrouter : c.routerConfigured = true)
    (h : (holdLock c db).result = .error (.lockUnavailable message)) :
    sendMessage c db = ((holdLock c db).db, .error (.lockUnavailable message)) := by
  simp [sendMessage, hrouter, h]

theorem sendMessage_uncreated (hrouter : c.routerConfigured = true)
    (h : (holdLock c db).result = .error e) (hcreated : (holdLock c db).turnCreated = false) :
    sendMessage c db = ((holdLock c db).db, .error e) := by
  cases e <;> simp [sendMessage, hrouter, h, hcreated]

/-- Every other error marks a turn that has been created. -/
theorem sendMessage_marked (hrouter : c.routerConfigured = true)
    (h : (holdLock c db).result = .error e) (hother : ∀ message, e ≠ .lockUnavailable message)
    (hcreated : (holdLock c db).turnCreated = true) :
    sendMessage c db =
      (markTurnFailed c.turnId (c.whileFailing.1 (holdLock c db).db), .error e) := by
  cases e with
  | lockUnavailable message => exact absurd rfl (hother message)
  | routing message => simp [sendMessage, hrouter, h, hcreated]
  | failed f => simp [sendMessage, hrouter, h, hcreated]
  | infrastructure => simp [sendMessage, hrouter, h, hcreated]

theorem leaves_of_not_creates (hnew : Unused c.turnId db) (h : ¬ Creates c) :
    LeavesNoHalfMadeTurn c db := by
  by_cases hrouter : c.routerConfigured = true
  · obtain ⟨e, hresult, hcreated, hunused⟩ := holdLock_uncreated hnew hrouter h
    exact (leaves_of_error (sendMessage_uncreated hrouter hresult hcreated)).mpr (.inl hunused.1)
  · have hsend : sendMessage c db =
        (db, .error (.failed (.runtimeError "Context Agent Router 未配置"))) := by
      rw [sendMessage, if_pos hrouter]
    exact (leaves_of_error hsend).mpr (.inl hnew.1)

/-- What the lock leaves of a body that has created the turn. -/
theorem holdLock_created (hnew : Unused c.turnId db) (h : Creates c) :
    (holdLock c db).db = c.whileReleasing.1 (selectChains c (createdOn c db)).1 ∧
      (holdLock c db).turnCreated = true ∧
      (c.release = .released → (holdLock c db).result = (selectChains c (createdOn c db)).2) ∧
      (c.release = .expired → (holdLock c db).result = .error (.lockUnavailable
        ("Conversation route lock expired: " ++ toString c.conversationId))) ∧
      (c.release = .raised → (holdLock c db).result = .error .infrastructure) := by
  have hacquire := h.2.1
  simp only [holdLock, hacquire, selectionBody_created hnew h]
  cases c.release with
  | released => simp
  | expired => simp
  | raised => simp

/-- A body that persists the selection keeps the promise unless the release raises. -/
theorem leaves_of_persists (hnew : Unused c.turnId db) (h : Creates c)
    (hp : Persists c (createdOn c db)) :
    LeavesNoHalfMadeTurn c db ↔ c.release = .released := by
  obtain ⟨hdb, hcreated, hreleased, hexpired, hraised⟩ := holdLock_created hnew h
  obtain ⟨hawait, -, -⟩ := createdOn_awaiting hnew
  obtain ⟨result, hok, hraw, hsettled, hactive⟩ := selectChains_ok hawait hp
  have hend : Settled c result.decision.relevantChainIds (holdLock c db).db := by
    rw [hdb]
    exact hsettled.after c.whileReleasing
  cases hrelease : c.release with
  | released =>
    rw [hok] at hreleased
    simp only [LeavesNoHalfMadeTurn, sendMessage_ok h.1 (hreleased hrelease), iff_true]
    exact ⟨hend.1, hraw, hend.2, hactive⟩
  | expired =>
    rw [leaves_of_error (sendMessage_lock h.1 (hexpired hrelease))]
    simp [hend.not_cleaned]
  | raised =>
    rw [leaves_of_error (sendMessage_marked h.1 (hraised hrelease) (by simp) hcreated)]
    simp [(hend.after c.whileFailing).marked.not_cleaned]

/-- A body that fails keeps the promise unless the lock has expired. -/
theorem leaves_of_not_persists (hnew : Unused c.turnId db) (h : Creates c)
    (hp : ¬ Persists c (createdOn c db)) :
    LeavesNoHalfMadeTurn c db ↔ c.release ≠ .expired := by
  obtain ⟨hdb, hcreated, hreleased, hexpired, hraised⟩ := holdLock_created hnew h
  obtain ⟨hawait, -, -⟩ := createdOn_awaiting hnew
  obtain ⟨e, herror, hother, hstill⟩ := selectChains_error hawait hp
  have hend : Awaiting c (holdLock c db).db := by
    rw [hdb]
    exact hstill.after c.whileReleasing
  cases hrelease : c.release with
  | released =>
    rw [herror] at hreleased
    rw [leaves_of_error (sendMessage_marked h.1 (hreleased hrelease) hother hcreated)]
    simp [(hend.after c.whileFailing).cleaned]
  | expired =>
    rw [leaves_of_error (sendMessage_lock h.1 (hexpired hrelease))]
    simp [hend.not_cleaned]
  | raised =>
    rw [leaves_of_error (sendMessage_marked h.1 (hraised hrelease) (by simp) hcreated)]
    simp [(hend.after c.whileFailing).cleaned]

/-- A call under a new id leaves no half-made turn exactly when it is not stranded. -/
theorem leaves_no_half_made_turn_iff (c : SendCall) (db : Db)
    (hturn : db.conversationTurns.get? c.turnId = none)
    (hselection : db.context.selections.get? c.turnId = none) :
    LeavesNoHalfMadeTurn c db ↔ ¬ Stranded c db := by
  have hnew : Unused c.turnId db := ⟨hturn, hselection⟩
  by_cases hcreates : Creates c
  · rw [Stranded, selects_iff hnew]
    by_cases hp : Persists c (createdOn c db)
    · rw [leaves_of_persists hnew hcreates hp]
      cases c.release <;> simp [hcreates, hp]
    · rw [leaves_of_not_persists hnew hcreates hp]
      cases c.release <;> simp [hcreates, hp]
  · have hleaves := leaves_of_not_creates hnew hcreates
    simp [Stranded, hcreates, hleaves]

end Call

/-! ## A lock that expires while the router thinks -/

/-- A chain of conversation 1. -/
def oneChainDb : Db where
  conversationTurns := .empty
  plans := .empty
  tasks := .empty
  taskDependencies := .empty
  taskExecutions := .empty
  outbox := .empty
  inbox := .empty
  clarifications := .empty
  context := { ContextTables.empty with chains := .single ⟨3, 1, 0, 0, false⟩ }

/-- The router answers the chain, twice. -/
def chooseTwice (release : Release) : SendCall where
  turnId := 7
  conversationId := 1
  message := "继续"
  routerConfigured := true
  acquire := .acquired
  createRaises := false
  queue := fun _ => some []
  decision := some ⟨[3, 3], "沿用"⟩
  persistRaises := false
  release := release
  whileWaiting := ⟨id, fun _ => ⟨rfl, rfl⟩⟩
  whileRouting := ⟨id, fun _ => ⟨rfl, rfl⟩⟩
  whileReleasing := ⟨id, fun _ => ⟨rfl, rfl⟩⟩
  whileFailing := ⟨id, fun _ => ⟨rfl, rfl⟩⟩

theorem leaves_no_half_made_turn_chooseTwice :
    LeavesNoHalfMadeTurn (chooseTwice .released) oneChainDb := by
  refine (leaves_no_half_made_turn_iff _ _ rfl rfl).mpr ?_
  rintro ⟨-, hrelease | ⟨hrelease, -⟩⟩
  · cases hrelease
  · cases hrelease

/-- The lock has expired at its release: the call raises, and the turn stays ready. -/
theorem expired_lock_strands : ¬ LeavesNoHalfMadeTurn (chooseTwice .expired) oneChainDb := by
  have hsend : sendMessage (chooseTwice .expired) oneChainDb =
      ((sendMessage (chooseTwice .expired) oneChainDb).1,
        .error (.lockUnavailable "Conversation route lock expired: 1")) :=
    Prod.ext rfl (by decide +kernel)
  have hready : ((sendMessage (chooseTwice .expired) oneChainDb).1.conversationTurns.get? 7).map
      ConversationTurn.status = some .contextReady := by
    decide +kernel
  rw [leaves_of_error hsend]
  rintro (hnone | ⟨t, hget, hst, -⟩)
  · rw [show (chooseTwice .expired).turnId = 7 from rfl] at hnone
    simp [hnone] at hready
  · rw [show (chooseTwice .expired).turnId = 7 from rfl] at hget
    simp [hget, hst] at hready

end DocFlow.Context
