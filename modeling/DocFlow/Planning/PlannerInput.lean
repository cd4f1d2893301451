import DocFlow.Context.CacheRebuild
import DocFlow.Planning.RunPlanning

/-!
# The input of a planner run

`_load_plannable_input` takes the chains of a turn out of one transaction and then asks for the hot
queue of each, without the lock of the conversation.  A queue that the cache does not answer is read
in a transaction of its own, which insists on the version of the first one.

`System` runs any number of such calls beside `complete_turn`, every Redis command a step of its
own.  What the cache holds is arbitrary, and a command may fail before or after it has been carried
out.  `updates` is the order in which completions have changed the resources of chains; the version
of a chain counts them (`Versioned`).  A call fails exactly when the cache does not answer for a
chain with an update since the call's first transaction (`disposable_iff`).
-/

namespace DocFlow.Planning.PlannerInput

open DocFlow.Context

/-! ## What a completion does to the versions -/

/-- The chains stay, and each is a version further for each of these updates of it. -/
def Versioned (updates : List ChainId) (t t' : ContextTables) : Prop :=
  ∀ chainId chain, t.chains.get? chainId = some chain →
    ∃ chain', t'.chains.get? chainId = some chain' ∧
      chain'.conversationId = chain.conversationId ∧
      chain'.resourceVersion = chain.resourceVersion + updates.count chainId

section Versions

variable {updates updates' : List ChainId} {t m t' : ContextTables}

theorem Versioned.refl (t : ContextTables) : Versioned [] t t := by
  intro chainId chain h
  exact ⟨chain, h, rfl, rfl⟩

theorem Versioned.of_chains (h : t'.chains = t.chains) : Versioned [] t t' := by
  intro chainId chain hchain
  exact ⟨chain, h ▸ hchain, rfl, rfl⟩

theorem Versioned.trans (h : Versioned updates t m) (h' : Versioned updates' m t') :
    Versioned (updates ++ updates') t t' := by
  intro chainId chain hchain
  obtain ⟨chain₁, hchain₁, hconversation₁, hversion₁⟩ := h chainId chain hchain
  obtain ⟨chain₂, hchain₂, hconversation₂, hversion₂⟩ := h' chainId chain₁ hchain₁
  refine ⟨chain₂, hchain₂, hconversation₂.trans hconversation₁, ?_⟩
  rw [hversion₂, hversion₁, List.count_append]
  omega

/-- A chain row is saved some versions further. -/
theorem Versioned.saveChain {chain : ContextChain} (chain' : ContextChain) {n : Nat}
    (hchain : t.chains.get? chain.chainId = some chain) (hid : chain'.chainId = chain.chainId)
    (hconversation : chain'.conversationId = chain.conversationId)
    (hversion : chain'.resourceVersion = chain.resourceVersion + n) :
    Versioned (List.replicate n chain.chainId) t (t.saveChain chain') := by
  intro chainId c hc
  by_cases hsame : chain.chainId = chainId
  · subst hsame
    obtain rfl := Option.some.inj (hchain.symm.trans hc)
    refine ⟨chain', ?_, hconversation, ?_⟩
    · rw [← hid]
      exact Table.get?_save_self (Table.get?_eq_some.mp hchain).1 hid
    · rw [hversion, List.count_replicate_self]
  · refine ⟨c, ?_, rfl, ?_⟩
    · rw [← hc]
      exact Table.get?_save_ne (hid ▸ hsame)
    · rw [List.count_eq_zero_of_not_mem, Nat.add_zero]
      intro hmem
      exact hsame (List.eq_of_mem_replicate hmem).symm

theorem applyInTransaction_version {chain chain' : ContextChain} {turnId : TurnId} {now : Time}
    {update : Option ChainTurnUpdate} {refresh : Option ContextResourceQueueRefresh}
    (h : applyInTransaction chain turnId now update t = .ok (refresh, chain', t')) :
    t'.chains = t.chains ∧
      chain' = { chain with
        resourceVersion := chain.resourceVersion + refresh.toList.length } ∧
      ∀ payload ∈ refresh.toList, payload.chainId = chain.chainId := by
  cases update with
  | none =>
    obtain ⟨rfl, hrest⟩ := Prod.mk.inj (Except.ok.inj h)
    obtain ⟨rfl, rfl⟩ := Prod.mk.inj hrest
    exact ⟨rfl, rfl, List.forall_mem_nil _⟩
  | some update =>
    obtain ⟨refs, m, hsee, hremove, hcases⟩ :=
      CachedChain.applyInTransaction_loops (u := ⟨turnId, now, update⟩) h
    have hchains : t'.chains = t.chains :=
      CachedChain.chains_of_loops (u := ⟨turnId, now, update⟩) hsee hremove
    rcases hcases with ⟨rfl, -, -, rfl⟩ | ⟨rfl, rfl⟩
    · exact ⟨hchains, rfl, List.forall_mem_nil _⟩
    · exact ⟨hchains, rfl, List.forall_mem_singleton.mpr rfl⟩

theorem attributeChain_versioned {turnId : TurnId} {now : Time} {updateMap : List ChainTurnUpdate}
    {chainId : ChainId} {refresh : Option ContextResourceQueueRefresh}
    (h : attributeChain turnId now updateMap chainId t = .ok (refresh, t')) :
    Versioned (refresh.toList.map (·.chainId)) t t' := by
  simp only [attributeChain, bind_eq_ok, orRaise_eq_ok, Prod.exists, pure_eq_ok,
    Prod.mk.injEq] at h
  obtain ⟨chain, hchain, t₁, hnode, _, chain', m, happly, rfl, rfl⟩ := h
  obtain ⟨nodes, -, rfl⟩ := createNode_eq_ok hnode
  obtain ⟨hchains, rfl, hids⟩ := applyInTransaction_version happly
  obtain rfl : chain.chainId = chainId := Table.key_of_get? hchain
  have hchain' : m.chains.get? chain.chainId = some chain := by
    rw [hchains]
    exact hchain
  have hmap : refresh.toList.map (·.chainId) =
      List.replicate refresh.toList.length chain.chainId := by
    rw [List.eq_replicate_iff, List.length_map]
    refine ⟨rfl, ?_⟩
    intro x hx
    obtain ⟨payload, hpayload, rfl⟩ := List.mem_map.mp hx
    exact hids payload hpayload
  have hsave := Versioned.saveChain
    { chain with
      resourceVersion := chain.resourceVersion + refresh.toList.length
      lastActiveAt := now
      archived := false } hchain' rfl rfl rfl
  rw [hmap]
  exact (Versioned.of_chains hchains).trans hsave

theorem attributeChains_versioned {turnId : TurnId} {now : Time} {updateMap : List ChainTurnUpdate}
    {chainIds : List ChainId} {refreshes : List ContextResourceQueueRefresh}
    (h : attributeChains turnId now updateMap chainIds t = .ok (refreshes, t')) :
    Versioned (refreshes.map (·.chainId)) t t' := by
  induction chainIds generalizing t refreshes with
  | nil =>
    obtain ⟨rfl, rfl⟩ := Prod.mk.inj (Except.ok.inj h)
    exact .refl _
  | cons chainId chainIds ih =>
    simp only [attributeChains, bind_eq_ok, Prod.exists, pure_eq_ok, Prod.mk.injEq] at h
    obtain ⟨refresh, m, hfirst, rest, _, hrest, rfl, rfl⟩ := h
    rw [List.map_append]
    exact (attributeChain_versioned hfirst).trans (ih hrest)

theorem createNewChain_versioned {conversationId : ConversationId} {now : Time}
    {newChainId : Option ChainId} (h : createNewChain conversationId now newChainId t = .ok t') :
    Versioned [] t t' := by
  cases newChainId with
  | none =>
    obtain rfl := Except.ok.inj h
    exact .refl _
  | some newChainId =>
    obtain ⟨chains, hchains, rfl⟩ := createChain_eq_ok h
    intro chainId chain hchain
    refine ⟨chain, ?_, rfl, rfl⟩
    obtain ⟨hmem, rfl⟩ := Table.get?_eq_some.mp hchain
    rw [← hchain]
    exact Table.get?_insert_ne hchains (Ne.symm (Table.key_not_mem_of_insert hchains hmem))

/-- **A completion takes each chain a version further for each refresh it asks for.** -/
theorem completeTurn_versioned {drawnChainId : ChainId} {now : Time} {turnId : TurnId}
    {command : CompleteTurnCommand} {db db' : Db} {result : CompleteTurnTransactionResult}
    (h : completeTurn drawnChainId now turnId command db = .ok (result, db')) :
    Versioned (result.resourceRefreshes.map (·.chainId)) db.context db'.context := by
  simp only [completeTurn, completeTurnInTransaction, bind_eq_ok, orRaise_eq_ok,
    ensure_eq_ok] at h
  obtain ⟨turn, hturn, turn', hturn', -, -, h⟩ := h
  split at h
  · simp only [answerCompleted, bind_eq_ok, ensure_eq_ok, pure_eq_ok, Prod.mk.injEq] at h
    obtain ⟨_, ⟨_, -, rfl⟩, rfl, rfl⟩ := h
    exact .refl _
  · simp only [bind_eq_ok, orRaise_eq_ok, ensure_eq_ok, Prod.exists, pure_eq_ok,
      Prod.mk.injEq] at h
    obtain ⟨_, -, _, -, _, -, targets, -, updateMap, -, _, -, t, hcreate, refreshes, t', hall,
      rfl, rfl⟩ := h
    exact (createNewChain_versioned hcreate).trans (attributeChains_versioned hall)

end Versions

/-! ## The calls -/

/-- What becomes of a Redis command. -/
inductive Reply
  | answered
  /-- it is carried out, but the connection is lost before the answer -/
  | unanswered
  /-- it is not carried out -/
  | lost
deriving DecidableEq, Repr

/-- Where `get_queue` stands. -/
inductive QueuePhase
  | readVersion
  | readList
  | readItems (resourceKeys : List ResourceKey)
  /-- before `_load_resources_for_warmup` -/
  | missed
  /-- before `replace` -/
  | warmed (resources : List ContextResourceRef)
  /-- before `_best_effort_invalidate` -/
  | invalidating (resources : List ContextResourceRef)
deriving DecidableEq, Repr

/-- `_load_plannable_input` in its loop: the chains with their queues, the chain whose queue is
asked for, and those behind it. -/
structure Reading where
  command : RunPlanningInput
  loaded : List (ContextChain × List ContextResourceRef)
  chain : ContextChain
  phase : QueuePhase
  todo : List ContextChain
deriving DecidableEq, Repr

inductive Load
  | reading (r : Reading)
  | loaded (chains : List (ContextChain × List ContextResourceRef))
  /-- `_load_plannable_snapshot` has raised -/
  | refused (failure : Failure)
  /-- `get_queue` has raised -/
  | failed (failure : Failure)
deriving DecidableEq, Repr

/-- The head of the loop. -/
def Load.next (command : RunPlanningInput) (loaded : List (ContextChain × List ContextResourceRef)) :
    List ContextChain → Load
  | [] => .loaded loaded
  | chain :: todo => .reading ⟨command, loaded, chain, .readVersion, todo⟩

/-- The queue of the chain is there. -/
def Reading.finish (r : Reading) (resources : List ContextResourceRef) : Load :=
  Load.next r.command (r.loaded ++ [(r.chain, resources)]) r.todo

def Reading.goto (r : Reading) (phase : QueuePhase) : Load := .reading { r with phase := phase }

/-- The keys of the chain in Redis. -/
def Reading.key (r : Reading) : ConversationId × ChainId :=
  (r.command.conversationId, r.chain.chainId)

/-- A call, and what it does not know: the chains of its first transaction, how many updates there
had been before it, and the steps it has taken. -/
structure LoadCall where
  load : Load
  chains : List ContextChain
  since : Nat
  steps : Nat
deriving DecidableEq, Repr

/-- `complete_turn` behind its commit: the refresh it is at, and those behind it. -/
structure Refreshing where
  response : CompleteTurnResult
  refresh : ContextResourceQueueRefresh
  /-- the refresh has not been applied -/
  invalidating : Bool
  todo : List ContextResourceQueueRefresh
deriving DecidableEq, Repr

inductive Completion
  | refreshing (r : Refreshing)
  | returned (response : CompleteTurnResult)
  /-- the transaction has raised -/
  | raised (failure : Failure)
deriving DecidableEq, Repr

def Completion.next (response : CompleteTurnResult) : List ContextResourceQueueRefresh → Completion
  | [] => .returned response
  | refresh :: todo => .refreshing ⟨response, refresh, false, todo⟩

def Refreshing.key (r : Refreshing) : ConversationId × ChainId :=
  (r.refresh.conversationId, r.refresh.chainId)

/-- A call, with what it has committed and the steps it has taken since. -/
structure CompletionCall where
  completion : Completion
  committed : Option CompleteTurnTransactionResult
  steps : Nat
deriving DecidableEq, Repr

structure System where
  db : Db
  caches : ConversationId × ChainId → CachedQueue
  loads : Nat → Option LoadCall
  completions : Nat → Option CompletionCall
  /-- the chains whose resources have been updated, in the order of the commits -/
  updates : List ChainId

inductive Action
  | snapshot (reader : Nat) (command : RunPlanningInput) (allowedStatuses : List ContextTurnStatus)
  | advanceLoad (reader : Nat) (reply : Reply)
  | complete (caller : Nat) (drawnChainId : ChainId) (now : Time) (turnId : TurnId)
      (command : CompleteTurnCommand)
  | advanceCompletion (caller : Nat) (reply : Reply)
  /-- the content of the cache changes in any way; a text that is no resource counts as missing, for
  a read that meets either has no queue -/
  | tamper (key : ConversationId × ChainId) (content : CachedQueue)
  /-- a transaction of another module -/
  | elsewhere (db : Db)

/-- Other transactions leave the chains with their versions. -/
def KeepsVersions (t t' : ContextTables) : Prop :=
  ∀ chain ∈ t.chains.rows, (t'.chains.get? chain.chainId).map
    (fun chain' => (chain'.conversationId, chain'.resourceVersion)) =
      some (chain.conversationId, chain.resourceVersion)

instance (t t' : ContextTables) : Decidable (KeepsVersions t t') :=
  inferInstanceAs (Decidable (∀ _ ∈ _, _))

namespace System

variable (repository : ContextResourceQueueRepository) (column : Time → Time)

def setCache (s : System) (key : ConversationId × ChainId) (content : CachedQueue) : System :=
  { s with caches := Function.update s.caches key content }

def setLoad (s : System) (reader : Nat) (call : LoadCall) : System :=
  { s with loads := Function.update s.loads reader (some call) }

def setCompletion (s : System) (caller : Nat) (call : CompletionCall) : System :=
  { s with completions := Function.update s.completions caller (some call) }

/-- A write command, which takes effect unless it is lost. -/
def command (s : System) (reply : Reply) (key : ConversationId × ChainId)
    (content : CachedQueue) : System :=
  if reply = .lost then s else s.setCache key content

/-- `_load_plannable_snapshot`. -/
def startLoad (s : System) (reader : Nat) (command : RunPlanningInput)
    (allowedStatuses : List ContextTurnStatus) : System :=
  match loadPlannableSnapshot command allowedStatuses s.db with
  | .error failure => s.setLoad reader ⟨.refused failure, [], s.updates.length, 0⟩
  | .ok chains => s.setLoad reader ⟨.next command [] chains, chains, s.updates.length, 0⟩

/-- One step of `get_queue`: what becomes of the call, and of the system beside it. -/
def stepQueue (s : System) (r : Reading) (reply : Reply) : Load × System :=
  match r.phase with
  | .readVersion =>
    if reply = .answered ∧
        ContextResourceQueueRepository.readVersion r.chain.resourceVersion (s.caches r.key) = true
    then (r.goto .readList, s) else (r.goto .missed, s)
  | .readList =>
    if reply = .answered then
      match repository.readList (s.caches r.key) with
      | .answer (some items) => (r.finish items, s)
      | .answer none => (r.goto .missed, s)
      | .keys resourceKeys => (r.goto (.readItems resourceKeys), s)
    else (r.goto .missed, s)
  | .readItems resourceKeys =>
    if reply = .answered then
      match ContextResourceQueueRepository.readItems resourceKeys (s.caches r.key) with
      | some items => (r.finish items, s)
      | none => (r.goto .missed, s)
    else (r.goto .missed, s)
  | .missed =>
    match loadResourcesForWarmup repository column r.command.conversationId r.chain.chainId
      r.chain.resourceVersion s.db.context with
    | .ok resources => (r.goto (.warmed resources), s)
    | .error failure => (.failed failure, s)
  | .warmed resources =>
    let s := s.command reply r.key
      (repository.replace resources r.chain.resourceVersion (s.caches r.key))
    if reply = .answered then (r.finish resources, s) else (r.goto (.invalidating resources), s)
  | .invalidating resources => (r.finish resources, s.command reply r.key .absent)

def stepLoad (s : System) (reader : Nat) (reply : Reply) : Option System :=
  match s.loads reader with
  | some ⟨.reading r, chains, since, steps⟩ =>
    let (load, s) := s.stepQueue repository column r reply
    some (s.setLoad reader ⟨load, chains, since, steps + 1⟩)
  | _ => none

/-- The transaction of `complete_turn`. -/
def startCompletion (s : System) (caller : Nat) (drawnChainId : ChainId) (now : Time)
    (turnId : TurnId) (command : CompleteTurnCommand) : System :=
  match completeTurn drawnChainId now turnId command s.db with
  | .error failure => s.setCompletion caller ⟨.raised failure, none, 0⟩
  | .ok (result, db) =>
    { s.setCompletion caller ⟨.next result.response result.resourceRefreshes, some result, 0⟩ with
      db := db
      updates := s.updates ++ result.resourceRefreshes.map (·.chainId) }

/-- One step of `refresh_after_commit`. -/
def stepRefresh (s : System) (r : Refreshing) (reply : Reply) : Completion × System :=
  if r.invalidating = true then
    (.next r.response r.todo, s.command reply r.key .absent)
  else
    let (applied, content) := repository.refresh r.refresh (s.caches r.key)
    let s := s.command reply r.key content
    if reply = .answered ∧ applied = true then (.next r.response r.todo, s)
    else (.refreshing { r with invalidating := true }, s)

def stepCompletion (s : System) (caller : Nat) (reply : Reply) : Option System :=
  match s.completions caller with
  | some ⟨.refreshing r, committed, steps⟩ =>
    let (completion, s) := s.stepRefresh repository r reply
    some (s.setCompletion caller ⟨completion, committed, steps + 1⟩)
  | _ => none

def step (s : System) : Action → Option System
  | .snapshot reader command allowedStatuses =>
    match s.loads reader with
    | none => some (s.startLoad reader command allowedStatuses)
    | some _ => none
  | .advanceLoad reader reply => s.stepLoad repository column reader reply
  | .complete caller drawnChainId now turnId command =>
    match s.completions caller with
    | none => some (s.startCompletion caller drawnChainId now turnId command)
    | some _ => none
  | .advanceCompletion caller reply => s.stepCompletion repository caller reply
  | .tamper key content => some (s.setCache key content)
  | .elsewhere db =>
    if KeepsVersions s.db.context db.context then some { s with db := db } else none

/-- Nobody is under way; the database and the cache may hold anything. -/
def Idle (s : System) : Prop :=
  (∀ reader, s.loads reader = none) ∧ (∀ caller, s.completions caller = none) ∧ s.updates = []

def machine : Machine System Action := ⟨Idle, step repository column⟩

end System

/-! ## The promise -/

/-- The chains of a call that has not failed. -/
def Load.chains : Load → Option (List ContextChain)
  | .reading r => some (r.loaded.map Prod.fst ++ r.chain :: r.todo)
  | .loaded chains => some (chains.map Prod.fst)
  | .refused _ | .failed _ => none

/-- The answer of a call that has not failed. -/
def Completion.response : Completion → Option CompleteTurnResult
  | .refreshing r => some r.response
  | .returned response => some response
  | .raised _ => none

/-- **The cache is disposable.** -/
structure Disposable (s : System) : Prop where
  /-- A call that is not refused by its first transaction does not fail, and has the queues of all
  its chains after six steps for each. -/
  loads : ∀ reader call, s.loads reader = some call → (∃ failure, call.load = .refused failure) ∨
    call.load.chains = some call.chains ∧
      (6 * call.chains.length ≤ call.steps → ∃ chains, call.load = .loaded chains)
  /-- A completion that is committed answers with what it has committed, after two steps for each
  refresh. -/
  completions : ∀ caller call result, s.completions caller = some call →
    call.committed = some result → call.completion.response = some result.response ∧
      (2 * result.resourceRefreshes.length ≤ call.steps →
        call.completion = .returned result.response)

/-- A queue that the cache has not answered is of a chain that no completion has updated since the
first transaction of the call. -/
def Current (s : System) : Action → Prop
  | .advanceLoad reader _ => ∀ call r, s.loads reader = some call → call.load = .reading r →
      r.phase = .missed → r.chain.chainId ∉ s.updates.drop call.since
  | _ => True

/-! ## The invariant -/

/-- The most steps that `get_queue` still takes. -/
def QueuePhase.weight : QueuePhase → Nat
  | .readVersion => 6
  | .readList => 5
  | .readItems _ => 4
  | .missed => 3
  | .warmed _ => 2
  | .invalidating _ => 1

def Refreshing.weight (r : Refreshing) : Nat := if r.invalidating = true then 1 else 2

/-- What holds of a call in its loop: the rows of its chains count the updates since. -/
structure ReadingSound (t : ContextTables) (updates : List ChainId) (call : LoadCall)
    (r : Reading) : Prop where
  since : call.since ≤ updates.length
  chains : r.loaded.map Prod.fst ++ r.chain :: r.todo = call.chains
  steps : call.steps + r.phase.weight + 6 * r.todo.length ≤ 6 * call.chains.length
  versions : ∀ x ∈ r.chain :: r.todo, ∃ chain, t.chains.get? x.chainId = some chain ∧
    chain.conversationId = r.command.conversationId ∧
    chain.resourceVersion = x.resourceVersion + (updates.drop call.since).count x.chainId

def LoadSound (t : ContextTables) (updates : List ChainId) (call : LoadCall) : Prop :=
  match call.load with
  | .reading r => ReadingSound t updates call r
  | .loaded chains => chains.map Prod.fst = call.chains
  | .refused _ | .failed _ => True

/-- What holds of a completion. -/
def CompletionSound (call : CompletionCall) : Prop :=
  match call.completion with
  | .refreshing r => ∃ result, call.committed = some result ∧ r.response = result.response ∧
      call.steps + r.weight + 2 * r.todo.length ≤ 2 * result.resourceRefreshes.length
  | .returned response => ∀ result, call.committed = some result → response = result.response
  | .raised _ => call.committed = none

structure Sound (s : System) : Prop where
  loads : ∀ reader call, s.loads reader = some call → LoadSound s.db.context s.updates call
  completions : ∀ caller call, s.completions caller = some call → CompletionSound call

section Calls

variable {t t' : ContextTables} {updates new : List ChainId} {call : LoadCall}

/-- Updates that are committed meanwhile are counted. -/
theorem LoadSound.later (h : LoadSound t updates call) (hversions : Versioned new t t') :
    LoadSound t' (updates ++ new) call := by
  unfold LoadSound at h ⊢
  cases hload : call.load with
  | reading r =>
    rw [hload] at h
    refine ⟨?_, h.chains, h.steps, ?_⟩
    · rw [List.length_append]
      exact Nat.le_add_right_of_le h.since
    · intro x hx
      obtain ⟨chain, hchain, hconversation, hversion⟩ := h.versions x hx
      obtain ⟨chain', hchain', hconversation', hversion'⟩ := hversions x.chainId chain hchain
      refine ⟨chain', hchain', hconversation'.trans hconversation, ?_⟩
      rw [hversion', hversion, List.drop_append_of_le_length h.since, List.count_append]
      omega
  | loaded chains =>
    rw [hload] at h
    exact h
  | refused failure => trivial
  | failed failure => trivial

/-- The head of the loop, behind these chains. -/
theorem LoadSound.next {command : RunPlanningInput}
    {loaded : List (ContextChain × List ContextResourceRef)} {todo chains : List ContextChain}
    {since steps : Nat} (hsince : since ≤ updates.length)
    (hchains : loaded.map Prod.fst ++ todo = chains)
    (hsteps : steps + 6 * todo.length ≤ 6 * chains.length)
    (hversions : ∀ x ∈ todo, ∃ chain, t.chains.get? x.chainId = some chain ∧
      chain.conversationId = command.conversationId ∧
      chain.resourceVersion = x.resourceVersion + (updates.drop since).count x.chainId) :
    LoadSound t updates ⟨.next command loaded todo, chains, since, steps⟩ := by
  cases todo with
  | nil =>
    rw [List.append_nil] at hchains
    exact hchains
  | cons chain todo =>
    refine ⟨hsince, hchains, ?_, hversions⟩
    show steps + 6 + 6 * todo.length ≤ 6 * chains.length
    rw [List.length_cons] at hsteps
    omega

theorem ReadingSound.goto {r : Reading} (h : ReadingSound t updates call r) {phase : QueuePhase}
    (hphase : phase.weight < r.phase.weight) :
    LoadSound t updates ⟨r.goto phase, call.chains, call.since, call.steps + 1⟩ := by
  refine ⟨h.since, h.chains, ?_, h.versions⟩
  have hsteps := h.steps
  show call.steps + 1 + phase.weight + 6 * r.todo.length ≤ 6 * call.chains.length
  omega

theorem weight_pos (phase : QueuePhase) : 0 < phase.weight := by
  cases phase <;> simp [QueuePhase.weight]

theorem ReadingSound.finish {r : Reading} (h : ReadingSound t updates call r)
    (resources : List ContextResourceRef) :
    LoadSound t updates ⟨r.finish resources, call.chains, call.since, call.steps + 1⟩ := by
  have hsteps := h.steps
  have hpos := weight_pos r.phase
  refine .next h.since ?_ ?_ ?_
  · rw [List.map_append, List.append_assoc]
    exact h.chains
  · omega
  · intro x hx
    exact h.versions x (List.mem_cons_of_mem _ hx)

/-- The chains of a first transaction, with their versions in it. -/
theorem plannableChains_versions {conversationId : ConversationId} {chainIds : List ChainId}
    {chains : List ContextChain} (h : plannableChains conversationId t chainIds = .ok chains) :
    ∀ x ∈ chains, t.chains.get? x.chainId = some x ∧ x.conversationId = conversationId := by
  induction chainIds generalizing chains with
  | nil =>
    obtain rfl := Except.ok.inj h
    exact List.forall_mem_nil _
  | cons chainId chainIds ih =>
    simp only [plannableChains, bind_eq_ok, orRaise_eq_ok, ensure_eq_ok, pure_eq_ok] at h
    obtain ⟨chain, hchain, _, hconversation, rest, hrest, rfl⟩ := h
    obtain rfl : chain.chainId = chainId := Table.key_of_get? hchain
    exact List.forall_mem_cons.mpr ⟨⟨hchain, hconversation⟩, ih hrest⟩

theorem LoadSound.start {command : RunPlanningInput} {allowedStatuses : List ContextTurnStatus}
    {db : Db} {chains : List ContextChain}
    (h : loadPlannableSnapshot command allowedStatuses db = .ok chains) :
    LoadSound db.context updates ⟨.next command [] chains, chains, updates.length, 0⟩ := by
  simp only [loadPlannableSnapshot, bind_eq_ok, orRaise_eq_ok, ensure_eq_ok] at h
  obtain ⟨turn, -, _, -, _, -, selection, -, _, -, h⟩ := h
  refine .next (Nat.le_refl _) rfl (by omega) ?_
  intro x hx
  obtain ⟨hchain, hconversation⟩ := plannableChains_versions h x hx
  refine ⟨x, hchain, hconversation, ?_⟩
  rw [List.drop_length, List.count_nil, Nat.add_zero]

/-- The transaction of the warm-up raises exactly when there has been an update. -/
theorem ReadingSound.warmup {r : Reading} (h : ReadingSound t updates call r)
    (repository : ContextResourceQueueRepository) (column : Time → Time) :
    (∃ resources, loadResourcesForWarmup repository column r.command.conversationId r.chain.chainId
      r.chain.resourceVersion t = .ok resources) ↔
      r.chain.chainId ∉ updates.drop call.since := by
  obtain ⟨chain, hchain, hconversation, hversion⟩ := h.versions r.chain List.mem_cons_self
  simp only [loadResourcesForWarmup, bind_eq_ok, orRaise_eq_ok, ensure_eq_ok, pure_eq_ok, hchain]
  rw [← List.count_eq_zero]
  constructor
  · rintro ⟨resources, _, hrow, _, -, _, hsame, -⟩
    obtain rfl := Option.some.inj hrow
    omega
  · intro hzero
    exact ⟨_, chain, rfl, (), hconversation, (), by omega, rfl⟩

end Calls

/-! ## One step -/

section Steps

variable {repository : ContextResourceQueueRepository} {column : Time → Time} {s s' : System}

@[simp] theorem loads_setLoad (s : System) (reader : Nat) (call : LoadCall) (reader' : Nat) :
    (s.setLoad reader call).loads reader' =
      if reader' = reader then some call else s.loads reader' := Function.update_apply ..

@[simp] theorem completions_setCompletion (s : System) (caller : Nat) (call : CompletionCall)
    (caller' : Nat) : (s.setCompletion caller call).completions caller' =
      if caller' = caller then some call else s.completions caller' := Function.update_apply ..

/-- The systems differ in the cache only. -/
structure CacheOnly (s s' : System) : Prop where
  db : s'.db = s.db
  loads : s'.loads = s.loads
  completions : s'.completions = s.completions
  updates : s'.updates = s.updates

theorem CacheOnly.refl (s : System) : CacheOnly s s := ⟨rfl, rfl, rfl, rfl⟩

theorem CacheOnly.command (s : System) (reply : Reply) (key : ConversationId × ChainId)
    (content : CachedQueue) : CacheOnly s (s.command reply key content) := by
  unfold System.command
  split
  · exact .refl s
  · exact ⟨rfl, rfl, rfl, rfl⟩

/-- **What one step of `get_queue` can do**: go on to a later phase, have the queue, or raise. -/
inductive QueueStep (repository : ContextResourceQueueRepository) (column : Time → Time)
    (t : ContextTables) (r : Reading) : Load → Prop
  | goto (phase : QueuePhase) : phase.weight < r.phase.weight →
      (r.phase = .missed → ∃ resources, loadResourcesForWarmup repository column
        r.command.conversationId r.chain.chainId r.chain.resourceVersion t = .ok resources) →
      QueueStep repository column t r (r.goto phase)
  | finish (resources : List ContextResourceRef) : r.phase ≠ .missed →
      QueueStep repository column t r (r.finish resources)
  | raise (failure : Failure) : r.phase = .missed →
      loadResourcesForWarmup repository column r.command.conversationId r.chain.chainId
        r.chain.resourceVersion t = .error failure →
      QueueStep repository column t r (.failed failure)

variable (repository column) in
theorem stepQueue_cases (s : System) (r : Reading) (reply : Reply) :
    QueueStep repository column s.db.context r (s.stepQueue repository column r reply).1 ∧
      CacheOnly s (s.stepQueue repository column r reply).2 := by
  unfold System.stepQueue
  cases hphase : r.phase with
  | readVersion =>
    dsimp only
    split
    · exact ⟨.goto _ (by simp [hphase, QueuePhase.weight]) (by simp [hphase]), .refl s⟩
    · exact ⟨.goto _ (by simp [hphase, QueuePhase.weight]) (by simp [hphase]), .refl s⟩
  | readList =>
    dsimp only
    split
    · split
      · exact ⟨.finish _ (by simp [hphase]), .refl s⟩
      · exact ⟨.goto _ (by simp [hphase, QueuePhase.weight]) (by simp [hphase]), .refl s⟩
      · exact ⟨.goto _ (by simp [hphase, QueuePhase.weight]) (by simp [hphase]), .refl s⟩
    · exact ⟨.goto _ (by simp [hphase, QueuePhase.weight]) (by simp [hphase]), .refl s⟩
  | readItems resourceKeys =>
    dsimp only
    split
    · split
      · exact ⟨.finish _ (by simp [hphase]), .refl s⟩
      · exact ⟨.goto _ (by simp [hphase, QueuePhase.weight]) (by simp [hphase]), .refl s⟩
    · exact ⟨.goto _ (by simp [hphase, QueuePhase.weight]) (by simp [hphase]), .refl s⟩
  | missed =>
    dsimp only
    split
    · next resources hload =>
      exact ⟨.goto _ (by simp [hphase, QueuePhase.weight]) fun _ => ⟨resources, hload⟩, .refl s⟩
    · next failure hload => exact ⟨.raise failure hphase hload, .refl s⟩
  | warmed resources =>
    dsimp only
    split
    · exact ⟨.finish _ (by simp [hphase]), .command ..⟩
    · exact ⟨.goto _ (by simp [hphase, QueuePhase.weight]) (by simp [hphase]), .command ..⟩
  | invalidating resources => exact ⟨.finish _ (by simp [hphase]), .command ..⟩

/-- A step keeps a call sound, and fails it when the chain has been updated. -/
theorem ReadingSound.step {updates : List ChainId} {call : LoadCall} {t : ContextTables}
    {r : Reading} {load : Load} (h : ReadingSound t updates call r)
    (hstep : QueueStep repository column t r load) :
    LoadSound t updates ⟨load, call.chains, call.since, call.steps + 1⟩ ∧
      ((∃ failure, load = .failed failure) ↔
        r.phase = .missed ∧ r.chain.chainId ∈ updates.drop call.since) := by
  cases hstep with
  | goto phase hphase hwarmup =>
    refine ⟨h.goto hphase, iff_of_false ?_ ?_⟩
    · rintro ⟨failure, hfailed⟩
      cases hfailed
    · rintro ⟨hmissed, hmem⟩
      exact (h.warmup repository column).mp (hwarmup hmissed) hmem
  | finish resources hphase =>
    refine ⟨h.finish resources, iff_of_false ?_ fun hmissed => hphase hmissed.1⟩
    rintro ⟨failure, hfailed⟩
    unfold Reading.finish Load.next at hfailed
    cases htodo : r.todo <;> simp [htodo] at hfailed
  | raise failure hphase hraise =>
    refine ⟨trivial, iff_of_true ⟨failure, rfl⟩ ⟨hphase, ?_⟩⟩
    by_contra hmem
    obtain ⟨resources, hload⟩ := (h.warmup repository column).mpr hmem
    rw [hraise] at hload
    cases hload

/-- A completion behind its commit goes on. -/
theorem CompletionSound.next {response : CompleteTurnResult}
    {todo : List ContextResourceQueueRefresh} {result : CompleteTurnTransactionResult} {steps : Nat}
    (hresponse : response = result.response)
    (hsteps : steps + 2 * todo.length ≤ 2 * result.resourceRefreshes.length) :
    CompletionSound ⟨.next response todo, some result, steps⟩ := by
  cases todo with
  | nil =>
    intro result' hresult
    obtain rfl := Option.some.inj hresult
    exact hresponse
  | cons refresh todo =>
    refine ⟨result, rfl, hresponse, ?_⟩
    show steps + 2 + 2 * todo.length ≤ 2 * result.resourceRefreshes.length
    rw [List.length_cons] at hsteps
    omega

variable (repository) in
theorem stepRefresh_sound (s : System) {r : Refreshing} (reply : Reply)
    {committed : Option CompleteTurnTransactionResult} {steps : Nat}
    (h : CompletionSound ⟨.refreshing r, committed, steps⟩) :
    CompletionSound ⟨(s.stepRefresh repository r reply).1, committed, steps + 1⟩ ∧
      CacheOnly s (s.stepRefresh repository r reply).2 := by
  obtain ⟨result, rfl, hresponse, hsteps⟩ := h
  change steps + r.weight + _ ≤ _ at hsteps
  unfold System.stepRefresh
  by_cases hinvalidating : r.invalidating = true
  · rw [if_pos hinvalidating]
    have hweight : r.weight = 1 := if_pos hinvalidating
    exact ⟨.next hresponse (by omega), .command ..⟩
  · rw [if_neg hinvalidating]
    have hweight : r.weight = 2 := if_neg hinvalidating
    dsimp only
    split
    · exact ⟨.next hresponse (by omega), .command ..⟩
    · refine ⟨⟨result, rfl, hresponse, ?_⟩, .command ..⟩
      show steps + 1 + 1 + 2 * r.todo.length ≤ 2 * result.resourceRefreshes.length
      omega

/-! ## The system -/

/-- A call has failed for the sake of the cache. -/
def Failed (s : System) : Prop :=
  ∃ reader call failure, s.loads reader = some call ∧ call.load = .failed failure

theorem Sound.cacheOnly (h : Sound s) (hsame : CacheOnly s s') : Sound s' := by
  refine ⟨?_, ?_⟩
  · intro reader call hcall
    rw [hsame.loads] at hcall
    rw [hsame.db, hsame.updates]
    exact h.loads reader call hcall
  · intro caller call hcall
    rw [hsame.completions] at hcall
    exact h.completions caller call hcall

theorem Sound.setLoad (h : Sound s) {reader : Nat} {call : LoadCall}
    (hcall : LoadSound s.db.context s.updates call) : Sound (s.setLoad reader call) := by
  refine ⟨?_, h.completions⟩
  intro reader' call' hcall'
  rw [loads_setLoad] at hcall'
  split at hcall'
  · obtain rfl := Option.some.inj hcall'
    exact hcall
  · exact h.loads reader' call' hcall'

theorem Sound.setCompletion (h : Sound s) {caller : Nat} {call : CompletionCall}
    (hcall : CompletionSound call) : Sound (s.setCompletion caller call) := by
  refine ⟨h.loads, ?_⟩
  intro caller' call' hcall'
  rw [completions_setCompletion] at hcall'
  split at hcall'
  · obtain rfl := Option.some.inj hcall'
    exact hcall
  · exact h.completions caller' call' hcall'

/-- A transaction that takes the chains further. -/
theorem Sound.commit (h : Sound s) {db : Db} {new : List ChainId}
    (hversions : Versioned new s.db.context db.context) :
    Sound { s with db := db, updates := s.updates ++ new } :=
  ⟨fun reader call hcall => (h.loads reader call hcall).later hversions, h.completions⟩

theorem Failed.of_loads (hloads : s'.loads = s.loads) : Failed s' ↔ Failed s := by
  unfold Failed
  rw [hloads]

theorem failed_setLoad {reader : Nat} {call : LoadCall}
    (hbefore : ∀ old failure, s.loads reader = some old → old.load ≠ .failed failure) :
    Failed (s.setLoad reader call) ↔ Failed s ∨ ∃ failure, call.load = .failed failure := by
  constructor
  · rintro ⟨reader', call', failure, hcall, hfailed⟩
    rw [loads_setLoad] at hcall
    split at hcall
    · obtain rfl := Option.some.inj hcall
      exact .inr ⟨failure, hfailed⟩
    · exact .inl ⟨reader', call', failure, hcall, hfailed⟩
  · rintro (⟨reader', call', failure, hcall, hfailed⟩ | ⟨failure, hfailed⟩)
    · have hne : reader' ≠ reader := by
        rintro rfl
        exact hbefore call' failure hcall hfailed
      exact ⟨reader', call', failure, by rw [loads_setLoad, if_neg hne, hcall], hfailed⟩
    · exact ⟨reader, call, failure, by rw [loads_setLoad, if_pos rfl], hfailed⟩

theorem Versioned.of_keeps {t t' : ContextTables} (h : KeepsVersions t t') : Versioned [] t t' := by
  intro chainId chain hchain
  obtain ⟨hmem, rfl⟩ := Table.get?_eq_some.mp hchain
  obtain ⟨chain', hchain', hsame⟩ := Option.map_eq_some_iff.mp (h chain hmem)
  exact ⟨chain', hchain', (Prod.mk.inj hsame).1, (Prod.mk.inj hsame).2⟩

theorem startLoad_sound (h : Sound s) {reader : Nat} (hnone : s.loads reader = none)
    (command : RunPlanningInput) (allowedStatuses : List ContextTurnStatus) :
    Sound (s.startLoad reader command allowedStatuses) ∧
      (Failed (s.startLoad reader command allowedStatuses) ↔ Failed s) := by
  have hbefore : ∀ old failure, s.loads reader = some old → old.load ≠ .failed failure := by
    intro old failure hold
    rw [hnone] at hold
    cases hold
  unfold System.startLoad
  split
  · refine ⟨h.setLoad trivial, (failed_setLoad hbefore).trans (or_iff_left ?_)⟩
    rintro ⟨failure, hfailed⟩
    cases hfailed
  · next chains hchains =>
    refine ⟨h.setLoad (.start hchains), (failed_setLoad hbefore).trans (or_iff_left ?_)⟩
    rintro ⟨failure, hfailed⟩
    cases chains <;> cases hfailed

/-- A call that takes a step is in its loop. -/
theorem stepLoad_eq_some {reader : Nat} {reply : Reply}
    (h : s.stepLoad repository column reader reply = some s') :
    ∃ r chains since steps, s.loads reader = some ⟨.reading r, chains, since, steps⟩ ∧
      s' = (s.stepQueue repository column r reply).2.setLoad reader
        ⟨(s.stepQueue repository column r reply).1, chains, since, steps + 1⟩ := by
  unfold System.stepLoad at h
  split at h
  · next r chains since steps hcall =>
    exact ⟨r, chains, since, steps, hcall, (Option.some.inj h).symm⟩
  · cases h

theorem stepLoad_sound (h : Sound s) {reader : Nat} {reply : Reply}
    (hstep : s.stepLoad repository column reader reply = some s') :
    Sound s' ∧ (Failed s' ↔ Failed s ∨ ¬ Current s (.advanceLoad reader reply)) := by
  obtain ⟨r, chains, since, steps, hcall, rfl⟩ := stepLoad_eq_some hstep
  obtain ⟨hqueue, hsame⟩ := stepQueue_cases repository column s r reply
  have hreading : ReadingSound s.db.context s.updates ⟨.reading r, chains, since, steps⟩ r :=
    h.loads reader _ hcall
  obtain ⟨hsound, hfailed⟩ := hreading.step hqueue
  refine ⟨?_, ?_⟩
  · apply (h.cacheOnly hsame).setLoad
    rw [hsame.db, hsame.updates]
    exact hsound
  · have hbefore : ∀ old failure,
        (s.stepQueue repository column r reply).2.loads reader = some old →
          old.load ≠ .failed failure := by
      intro old failure hold hload
      rw [hsame.loads, hcall] at hold
      obtain rfl := Option.some.inj hold
      cases hload
    rw [failed_setLoad hbefore, Failed.of_loads hsame.loads]
    refine or_congr_right (hfailed.trans ?_)
    constructor
    · rintro ⟨hmissed, hmem⟩ hcurrent
      exact hcurrent _ r hcall rfl hmissed hmem
    · intro hcurrent
      by_contra hnot
      refine hcurrent ?_
      intro call r' hcall' hload hmissed hmem
      obtain rfl := Option.some.inj (hcall.symm.trans hcall')
      obtain rfl : r = r' := Load.reading.inj hload
      exact hnot ⟨hmissed, hmem⟩

theorem startCompletion_sound (h : Sound s) (caller : Nat) (drawnChainId : ChainId) (now : Time)
    (turnId : TurnId) (command : CompleteTurnCommand) :
    Sound (s.startCompletion caller drawnChainId now turnId command) ∧
      (Failed (s.startCompletion caller drawnChainId now turnId command) ↔ Failed s) := by
  unfold System.startCompletion
  split
  · exact ⟨h.setCompletion rfl, Failed.of_loads rfl⟩
  · next result db hcomplete =>
    refine ⟨Sound.commit (h.setCompletion ?_) (completeTurn_versioned hcomplete),
      Failed.of_loads rfl⟩
    apply CompletionSound.next rfl
    omega

theorem stepCompletion_eq_some {caller : Nat} {reply : Reply}
    (h : s.stepCompletion repository caller reply = some s') :
    ∃ r committed steps, s.completions caller = some ⟨.refreshing r, committed, steps⟩ ∧
      s' = (s.stepRefresh repository r reply).2.setCompletion caller
        ⟨(s.stepRefresh repository r reply).1, committed, steps + 1⟩ := by
  unfold System.stepCompletion at h
  split at h
  · next r committed steps hcall =>
    exact ⟨r, committed, steps, hcall, (Option.some.inj h).symm⟩
  · cases h

theorem stepCompletion_sound (h : Sound s) {caller : Nat} {reply : Reply}
    (hstep : s.stepCompletion repository caller reply = some s') :
    Sound s' ∧ (Failed s' ↔ Failed s) := by
  obtain ⟨r, committed, steps, hcall, rfl⟩ := stepCompletion_eq_some hstep
  obtain ⟨hsound, hsame⟩ := stepRefresh_sound repository s reply
    (h.completions caller _ hcall)
  exact ⟨(h.cacheOnly hsame).setCompletion hsound, Failed.of_loads hsame.loads⟩

/-- **One step** keeps the system sound, and fails a call exactly when it is not `Current`. -/
theorem step_sound (h : Sound s) {a : Action}
    (hstep : (System.machine repository column).step s a = some s') :
    Sound s' ∧ (Failed s' ↔ Failed s ∨ ¬ Current s a) := by
  have hquiet : Failed s ∨ ¬ True ↔ Failed s := or_iff_left fun hnot => hnot trivial
  cases a with
  | snapshot reader command allowedStatuses =>
    change (match s.loads reader with
      | none => some (s.startLoad reader command allowedStatuses)
      | some _ => none) = some s' at hstep
    cases hnone : s.loads reader with
    | none =>
      rw [hnone] at hstep
      obtain rfl := Option.some.inj hstep
      obtain ⟨hsound, hfailed⟩ := startLoad_sound h hnone command allowedStatuses
      exact ⟨hsound, hfailed.trans hquiet.symm⟩
    | some call =>
      rw [hnone] at hstep
      cases hstep
  | advanceLoad reader reply => exact stepLoad_sound h hstep
  | complete caller drawnChainId now turnId command =>
    change (match s.completions caller with
      | none => some (s.startCompletion caller drawnChainId now turnId command)
      | some _ => none) = some s' at hstep
    cases hnone : s.completions caller with
    | none =>
      rw [hnone] at hstep
      obtain rfl := Option.some.inj hstep
      obtain ⟨hsound, hfailed⟩ := startCompletion_sound h caller drawnChainId now turnId command
      exact ⟨hsound, hfailed.trans hquiet.symm⟩
    | some call =>
      rw [hnone] at hstep
      cases hstep
  | advanceCompletion caller reply =>
    obtain ⟨hsound, hfailed⟩ := stepCompletion_sound h hstep
    exact ⟨hsound, hfailed.trans hquiet.symm⟩
  | tamper key content =>
    obtain rfl := Option.some.inj hstep
    exact ⟨h.cacheOnly ⟨rfl, rfl, rfl, rfl⟩, (Failed.of_loads rfl).trans hquiet.symm⟩
  | elsewhere db =>
    change (if KeepsVersions s.db.context db.context then some { s with db := db } else none) =
      some s' at hstep
    split at hstep
    · next hkeeps =>
      obtain rfl := Option.some.inj hstep
      have hcommit := h.commit (Versioned.of_keeps hkeeps)
      rw [List.append_nil] at hcommit
      exact ⟨hcommit, (Failed.of_loads rfl).trans hquiet.symm⟩
    · cases hstep

/-- A sound system is as the cache's users want it unless a call has failed. -/
theorem disposable_iff_of_sound (h : Sound s) : Disposable s ↔ ¬ Failed s := by
  constructor
  · rintro hdisposable ⟨reader, call, failure, hcall, hfailed⟩
    rcases hdisposable.loads reader call hcall with ⟨failure', hrefused⟩ | ⟨hchains, -⟩
    · rw [hfailed] at hrefused
      cases hrefused
    · rw [hfailed] at hchains
      cases hchains
  · intro hnone
    refine ⟨?_, ?_⟩
    · intro reader call hcall
      have hsound := h.loads reader call hcall
      unfold LoadSound at hsound
      cases hload : call.load with
      | reading r =>
        rw [hload] at hsound
        refine .inr ⟨congrArg some hsound.chains, ?_⟩
        intro hsteps
        have hbound := hsound.steps
        have hpos := weight_pos r.phase
        omega
      | loaded chains =>
        rw [hload] at hsound
        exact .inr ⟨congrArg some hsound, fun _ => ⟨chains, rfl⟩⟩
      | refused failure => exact .inl ⟨failure, rfl⟩
      | failed failure => exact absurd ⟨reader, call, failure, hcall, hload⟩ hnone
    · intro caller call result hcall hcommitted
      have hsound := h.completions caller call hcall
      unfold CompletionSound at hsound
      cases hcompletion : call.completion with
      | refreshing r =>
        rw [hcompletion] at hsound
        obtain ⟨result', hcommitted', hresponse, hbound⟩ := hsound
        obtain rfl := Option.some.inj (hcommitted.symm.trans hcommitted')
        refine ⟨congrArg some hresponse, ?_⟩
        intro hsteps
        have hpos : 0 < r.weight := by
          unfold Refreshing.weight
          split <;> omega
        omega
      | returned response =>
        rw [hcompletion] at hsound
        have hresponse := hsound result hcommitted
        exact ⟨congrArg some hresponse, fun _ => congrArg _ hresponse⟩
      | raised failure =>
        rw [hcompletion] at hsound
        rw [hsound] at hcommitted
        cases hcommitted

/-! ## Whole runs -/

theorem Sound.of_idle (h : System.Idle s) : Sound s ∧ ¬ Failed s := by
  obtain ⟨hloads, hcompletions, -⟩ := h
  refine ⟨⟨?_, ?_⟩, ?_⟩
  · intro reader call hcall
    rw [hloads] at hcall
    cases hcall
  · intro caller call hcall
    rw [hcompletions] at hcall
    cases hcall
  · rintro ⟨reader, call, failure, hcall, -⟩
    rw [hloads] at hcall
    cases hcall

/-- A run fails a call exactly when one of its steps is not `Current`. -/
theorem run_sound {actions : List Action} (h : Sound s)
    (hrun : (System.machine repository column).run s actions = some s') :
    Sound s' ∧ (¬ Failed s' ↔
      ¬ Failed s ∧ (System.machine repository column).RunVia Current s actions s') := by
  induction actions generalizing s with
  | nil =>
    obtain rfl := Option.some.inj hrun
    exact ⟨h, iff_self_and.mpr fun _ => .nil _⟩
  | cons a actions ih =>
    obtain ⟨m, hstep, hrest⟩ := Machine.run_cons.mp hrun
    obtain ⟨hsound, hfailed⟩ := step_sound h hstep
    obtain ⟨hsound', hrest'⟩ := ih hsound hrest
    refine ⟨hsound', hrest'.trans ?_⟩
    rw [hfailed, not_or, not_not]
    constructor
    · rintro ⟨⟨hnone, hcurrent⟩, hvia⟩
      exact ⟨hnone, .cons hcurrent hstep hvia⟩
    · rintro ⟨hnone, hvia⟩
      cases hvia with
      | cons hcurrent hstep' hvia =>
        obtain rfl := Option.some.inj (hstep.symm.trans hstep')
        exact ⟨⟨hnone, hcurrent⟩, hvia⟩

end Steps

/-- **The cache is disposable in a run exactly when no queue is read from the database behind an
update of its chain.** -/
theorem disposable_iff (repository : ContextResourceQueueRepository) (column : Time → Time)
    (s s' : System) (actions : List Action) (hidle : s.Idle)
    (hrun : (System.machine repository column).run s actions = some s') :
    Disposable s' ↔ (System.machine repository column).RunVia Current s actions s' := by
  obtain ⟨hsound, hnone⟩ := Sound.of_idle hidle
  obtain ⟨hsound', hiff⟩ := run_sound hsound hrun
  rw [disposable_iff_of_sound hsound', hiff, and_iff_right hnone]

/-! ## A call beside a completion -/

/-- The first of the three turns is completed; the other two have selected its chain. -/
def firstTurnCompleted : Db :=
  (contextService.run threeTurns (completeThreeTurns.take 1)).getD threeTurns

/-- Nothing is cached. -/
def sampleSystem : System := ⟨firstTurnCompleted, fun _ => .absent, fun _ => none, fun _ => none, []⟩

theorem idle_sampleSystem : sampleSystem.Idle := ⟨fun _ => rfl, fun _ => rfl, rfl⟩

/-- The planner run of the second turn. -/
def sampleInput : RunPlanningInput := ⟨1, 2, 1, none, none⟩

/-- The completion of the third turn, with a resource. -/
def sampleCompletion : CompleteTurnCommand :=
  completion ⟨[9], false, none⟩ [documentResource "8"] []

/-- The completion comes when the queue is there; Redis loses every write. -/
def sampleActions : List Action :=
  [.snapshot 0 sampleInput [.contextReady], .advanceLoad 0 .answered, .advanceLoad 0 .answered,
    .complete 0 10 5 3 sampleCompletion, .advanceLoad 0 .lost, .advanceCompletion 0 .lost,
    .advanceLoad 0 .lost, .advanceCompletion 0 .lost]

def sampleResult : System :=
  ((System.machine CachedChain.queueOfTwo id).run sampleSystem sampleActions).getD sampleSystem

theorem run_sampleActions :
    (System.machine CachedChain.queueOfTwo id).run sampleSystem sampleActions =
      some sampleResult := by
  rfl

theorem disposable_iff_sampleActions :
    (Disposable sampleResult ↔ (System.machine CachedChain.queueOfTwo id).RunVia Current
      sampleSystem sampleActions sampleResult) ∧
    (sampleResult.loads 0).map (fun call => (call.load.chains, call.steps)) =
      some (some [⟨9, 1, 1, 0, false⟩], 4) ∧
    (sampleResult.completions 0).map (·.steps) = some 2 :=
  ⟨disposable_iff CachedChain.queueOfTwo id sampleSystem sampleResult sampleActions
    idle_sampleSystem run_sampleActions, by decide +kernel, by decide +kernel⟩

/-- The completion comes between the miss and the read of the database. -/
def overtakenActions : List Action :=
  [.snapshot 0 sampleInput [.contextReady], .advanceLoad 0 .answered,
    .complete 0 10 5 3 sampleCompletion, .advanceLoad 0 .answered]

def overtakenResult : System :=
  ((System.machine CachedChain.queueOfTwo id).run sampleSystem overtakenActions).getD sampleSystem

/-- With an empty cache the call fails; it reads a chain that has been updated meanwhile. -/
theorem miss_becomes_failure :
    (overtakenResult.loads 0).map (·.load) =
      some (.failed (.runtimeError "Context Chain 资源版本已变化: 9")) ∧
    ¬ ∀ (repository : ContextResourceQueueRepository) (column : Time → Time) (s s' : System)
      (actions : List Action), s.Idle →
      (System.machine repository column).run s actions = some s' → Disposable s' := by
  have hfailed : (overtakenResult.loads 0).map (·.load) =
      some (.failed (.runtimeError "Context Chain 资源版本已变化: 9")) := by
    decide +kernel
  refine ⟨hfailed, ?_⟩
  intro hall
  have hrun : (System.machine CachedChain.queueOfTwo id).run sampleSystem overtakenActions =
      some overtakenResult := by
    rfl
  obtain ⟨call, hcall, hload⟩ := Option.map_eq_some_iff.mp hfailed
  rcases (hall _ _ _ _ _ idle_sampleSystem hrun).loads 0 call hcall with
    ⟨failure, hrefused⟩ | ⟨hchains, -⟩
  · rw [hload] at hrefused
    cases hrefused
  · rw [hload] at hchains
    cases hchains

end DocFlow.Planning.PlannerInput
