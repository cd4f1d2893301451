import DocFlow.Document.Chunks
import DocFlow.Document.Fences

/-!
# The points in the vector store

Points are written and deleted inside the index fence only, by the owner or by a compensation.  No
point outlives its chunk's place in the index: it belongs to a chunk that is being indexed or is
indexed.  The converse, that an indexed document has all its points, needs a guard which the
compensator lacks: it does not check again, inside the fence, that the document is still its own.
-/

namespace DocFlow.Pipeline

theorem mem_upsertPoints {points new : List Point} {p : Point} :
    p ∈ upsertPoints points new ↔ p ∈ points ∧ p.id ∉ new.map (·.id) ∨ p ∈ new := by
  simp [upsertPoints]

theorem mem_deletePoints {points : List Point} {ids : List Nat} {p : Point} :
    p ∈ deletePoints points ids ↔ p ∈ points ∧ p.id ∉ ids := by
  simp [deletePoints]

/-- The chunk has a point. -/
def World.HasPoint (w : World) (id : Nat) : Prop := ∃ p ∈ w.points, p.id = id

section Step

variable {settings : Settings} {w w' : World} {act : Action}

/-! ## The step -/

/-- What a step does to the points. -/
inductive PointsMoved (settings : Settings) (w : World) (act : Action) (w' : World) : Prop
  | kept (h : w'.points = w.points)
  | upserted {o : String} {context : IndexingContext} {rest : List IndexingChunkInput}
      (hwork : w.attempts o = some (.indexingOwned context rest)) (hrows : w'.rows = w.rows)
      (h : w'.points = upsertPoints w.points
        ((rest.take settings.embeddingBatchSize).map (buildPoint context)))
  | deleted {i : Nat} {o : String} {snapshot : IndexingCompensationSnapshot}
      (ha : act = .deletePoints i) (hphase : w.compensations i = some ⟨o, .indexFenced snapshot⟩)
      (hrows : w'.rows = w.rows) (h : w'.points = deletePoints w.points snapshot.chunkIds)

theorem Moved.points (hm : Moved settings w act w') : PointsMoved settings w act w' := by
  cases hm with
  | upserted h => exact .upserted h rfl rfl
  | pointsDeleted h => exact .deleted rfl h rfl rfl
  | _ => exact .kept rfl

/-- An attempt that has checked its ownership was there before, or checks it in this step. -/
theorem Moved.indexingOwned (hm : Moved settings w act w') {o : String} {context : IndexingContext}
    {rest : List IndexingChunkInput} (ha' : w'.attempts o = some (.indexingOwned context rest)) :
    w.attempts o = some (.indexingOwned context rest) ∨ w'.owner = some o := by
  have hsame : ∀ o a, w.attempts o = some a → a = .indexingOwned context rest →
      w.attempts o = some (.indexingOwned context rest) ∨ w'.owner = some o := by
    rintro o a ha rfl
    exact .inl ha
  have hall : ∀ o a, w'.attempts o = some a → a = .indexingOwned context rest →
      w.attempts o = some (.indexingOwned context rest) ∨ w'.owner = some o := by
    cases hm with
    | started _ => exact World.forall_setAttempt hsame (fun he => Attempt.noConfusion he)
    | halted _ _ _ => exact World.forall_setAttempt hsame (fun he => Attempt.noConfusion he)
    | claimedProcess _ _ _ _ => exact World.forall_setAttempt hsame (fun he => Attempt.noConfusion he)
    | claimedChunks _ _ _ _ _ _ _ _ =>
      exact World.forall_setAttempt hsame (fun he => Attempt.noConfusion he)
    | claimedIndex _ _ _ _ _ _ =>
      exact World.forall_setAttempt hsame (fun he => Attempt.noConfusion he)
    | processAcquired _ _ => exact World.forall_setAttempt hsame (fun he => Attempt.noConfusion he)
    | indexAcquired _ _ => exact World.forall_setAttempt hsame (fun he => Attempt.noConfusion he)
    | processOwned _ _ _ => exact World.forall_setAttempt hsame (fun he => Attempt.noConfusion he)
    | indexOwned _ _ ho => exact World.forall_setAttempt hsame (fun _ => .inr ho)
    | filesMoved _ _ hf =>
      refine World.forall_setAttempt hsame (fun he => ?_)
      rw [he] at hf
      cases hf
    | stagingCleared _ _ => exact World.forall_setAttempt hsame (fun he => Attempt.noConfusion he)
    | processCompleted _ _ => exact World.forall_setAttempt hsame (fun he => Attempt.noConfusion he)
    | chunksBuilt _ _ => exact World.forall_setAttempt hsame (fun he => Attempt.noConfusion he)
    | chunksCompleted _ _ => exact World.forall_setAttempt hsame (fun he => Attempt.noConfusion he)
    | upserted _ => exact World.forall_setAttempt hsame (fun he => Attempt.noConfusion he)
    | indexCompleted _ _ _ _ _ =>
      exact World.forall_setAttempt hsame (fun he => Attempt.noConfusion he)
    | _ => exact hsame
  exact hall o _ ha' rfl

/-- A compensation that has deleted its points was there before, or deletes them in this step. -/
theorem Moved.pointsDeleted_before (hm : Moved settings w act w') {i : Nat} {o : String}
    {snapshot : IndexingCompensationSnapshot}
    (hc' : w'.compensations i = some ⟨o, .pointsDeleted snapshot⟩) :
    w.compensations i = some ⟨o, .pointsDeleted snapshot⟩ ∨
      w'.points = deletePoints w.points snapshot.chunkIds := by
  have hsame : ∀ j c, w.compensations j = some c → c = ⟨o, .pointsDeleted snapshot⟩ →
      w.compensations j = some ⟨o, .pointsDeleted snapshot⟩ ∨
        w'.points = deletePoints w.points snapshot.chunkIds := by
    rintro j c hc rfl
    exact .inl hc
  have hall : ∀ j c, w'.compensations j = some c → c = ⟨o, .pointsDeleted snapshot⟩ →
      w.compensations j = some ⟨o, .pointsDeleted snapshot⟩ ∨
        w'.points = deletePoints w.points snapshot.chunkIds := by
    cases hm with
    | @compensationStarted _ _ a _ _ =>
      refine World.forall_setCompensation hsame (fun he => ?_)
      have hphase : a.stage.compensator = .pointsDeleted snapshot := congrArg (·.phase) he
      cases hs : a.stage <;> rw [hs] at hphase <;> cases hphase
    | processFailed _ _ _ => exact World.forall_setCompensation hsame (fun he => by cases he)
    | processNotFailed _ _ => exact World.forall_setCompensation hsame (fun he => by cases he)
    | chunksFailed _ _ _ => exact World.forall_setCompensation hsame (fun he => by cases he)
    | indexPrepared _ _ _ _ => exact World.forall_setCompensation hsame (fun he => by cases he)
    | compensationProcessFenced _ _ =>
      exact World.forall_setCompensation hsame (fun he => by cases he)
    | compensationIndexFenced _ _ =>
      exact World.forall_setCompensation hsame (fun he => by cases he)
    | ownerChecked _ _ _ _ => exact World.forall_setCompensation hsame (fun he => by cases he)
    | dirCleared _ => exact World.forall_setCompensation hsame (fun he => by cases he)
    | released _ _ => exact World.forall_setCompensation hsame (fun he => by cases he)
    | pointsDeleted _ =>
      refine World.forall_setCompensation hsame (fun he => .inr ?_)
      cases he
      rfl
    | indexFailed _ _ _ => exact World.forall_setCompensation hsame (fun he => by cases he)
    | ended _ _ => exact World.forall_setCompensation hsame (fun he => by cases he)
    | _ => exact hsame
  exact hall i _ hc' rfl

/-! ## No orphan -/

/-- A point with this id may be in the store. -/
def World.InIndex (w : World) (id : Nat) : Prop :=
  ∃ c ∈ w.rows.childChunks, c.id = id ∧ (c.vectorStatus = .indexing ∨ c.vectorStatus = .indexed)

structure VectorState (w : World) : Prop where
  fenced : Fenced w
  /-- an attempt that has checked its ownership keeps it until it leaves the fence -/
  owner : ∀ o context rest, w.attempts o = some (.indexingOwned context rest) → w.owner = some o
  points : ∀ p ∈ w.points, w.InIndex p.id
  /-- the points a compensation has deleted do not come back while it is in the fence -/
  deleted : ∀ i o snapshot, w.compensations i = some ⟨o, .pointsDeleted snapshot⟩ →
    ∀ p ∈ w.points, p.id ∉ snapshot.chunkIds

theorem Uploaded.vectorState (h : Uploaded w) : VectorState w := by
  refine ⟨h.fenced, ?_, ?_, ?_⟩
  · intro o context rest ha
    rw [h.attempts] at ha
    cases ha
  · intro p hp
    rw [h.points] at hp
    cases hp
  · intro i o snapshot hc
    rw [h.compensations] at hc
    cases hc

/-- While an indexing attempt is inside the fence with its ownership checked, nobody takes the
document from it. -/
theorem VectorState.owner_after (hV : VectorState w) (hr : Roles w) (hm : Moved settings w act w')
    {o : String} {context : IndexingContext} {rest : List IndexingChunkInput}
    (ha : w.attempts o = some (.indexingOwned context rest)) : w'.owner = some o := by
  have ho := hV.owner o context rest ha
  have hfree : w.owner = none → False := by
    intro hnone
    rw [ho] at hnone
    cases hnone
  have hself : ∀ {o'}, w.owner = some o' → o' = o :=
    fun ho' => Option.some.inj (ho'.symm.trans ho)
  -- a compensation of the operation is of the indexing stage
  have hstage : ∀ {i o' phase}, w.compensations i = some ⟨o', phase⟩ → w.owner = some o' →
      phase.Of .indexVectors := by
    intro i o' phase hi ho'
    obtain rfl := hself ho'
    obtain ⟨a, hb, hof⟩ := hr.matching i _ hi
    obtain rfl := Option.some.inj (ha.symm.trans hb)
    exact hof
  cases hm with
  | claimedProcess _ hc _ _ => exact (hfree hc.free).elim
  | claimedChunks _ hc _ _ _ _ _ _ => exact (hfree hc.free).elim
  | claimedIndex _ hc _ _ _ _ => exact (hfree hc.free).elim
  | processCompleted h hw =>
    obtain rfl := hself hw.owner
    cases ha.symm.trans h
  | chunksCompleted h hw =>
    obtain rfl := hself hw.owner
    cases ha.symm.trans h
  | indexCompleted h hw _ _ _ =>
    obtain rfl := hself hw.owner
    cases ha.symm.trans h
  | chunksFailed h ho' _ => cases hstage h ho'
  | released h ho' => cases hstage h ho'
  | @indexFailed i o' snapshot h ho' _ =>
    -- the compensation is in the fence too
    have hattempt : w.Inside .index (.attempt o) := ⟨_, ha, rfl⟩
    have hcompensation : w.Inside .index (.compensation i) := ⟨_, h, rfl⟩
    cases hV.fenced.unique hattempt hcompensation
  | _ => exact ho

theorem VectorState.owner_moved (hV : VectorState w) (hr : Roles w) (hm : Moved settings w act w')
    {o : String} {context : IndexingContext} {rest : List IndexingChunkInput}
    (ha' : w'.attempts o = some (.indexingOwned context rest)) : w'.owner = some o := by
  rcases hm.indexingOwned ha' with ha | ho
  · exact hV.owner_after hr hm ha
  · exact ho

theorem VectorState.deleted_moved (hV : VectorState w) (hm : Moved settings w act w') {i : Nat}
    {o : String} {snapshot : IndexingCompensationSnapshot}
    (hc' : w'.compensations i = some ⟨o, .pointsDeleted snapshot⟩) :
    ∀ p ∈ w'.points, p.id ∉ snapshot.chunkIds := by
  rcases hm.pointsDeleted_before hc' with hc | hpoints
  · have hbefore := hV.deleted i o snapshot hc
    cases hm.points with
    | kept h =>
      rw [h]
      exact hbefore
    | @upserted o' context rest hwork _ _ =>
      have hattempt : w.Inside .index (.attempt o') := ⟨_, hwork, rfl⟩
      have hcompensation : w.Inside .index (.compensation i) := ⟨_, hc, rfl⟩
      cases hV.fenced.unique hattempt hcompensation
    | deleted _ _ _ h =>
      intro p hp
      rw [h, mem_deletePoints] at hp
      exact hbefore p hp.1
  · intro p hp
    rw [hpoints, mem_deletePoints] at hp
    exact hp.2

/-- The points of the owner's chunks. -/
theorem inIndex_of_work (hc : ChunkState w) (hV : VectorState w) {o : String}
    {context : IndexingContext} {rest : List IndexingChunkInput} {x : IndexingChunkInput}
    (ha : w.attempts o = some (.indexingOwned context rest)) (hx : x ∈ rest) :
    w.InIndex x.chunkId := by
  obtain ⟨hsub, hids, hex⟩ := hc.work.work o _ (context, rest) ha rfl (hV.owner o context rest ha)
  have hid : x.chunkId ∈ context.chunkIds := List.mem_map_of_mem (hsub x hx)
  obtain ⟨c, hmem, hcid⟩ := hex _ hid
  refine ⟨c, hmem, hcid, .inl ?_⟩
  rw [← hcid] at hid
  exact (hids c hmem).mpr hid

theorem World.InIndex.kept {id : Nat} (h : w.InIndex id)
    (hrows : w'.rows.childChunks = w.rows.childChunks) : w'.InIndex id := by
  obtain ⟨c, hmem, hc⟩ := h
  exact ⟨c, hrows ▸ hmem, hc⟩

/-- What the steps on the chunk rows keep of the index. -/
theorem VectorState.inIndex_after (hV : VectorState w) (hc : ChunkState w)
    (hcm : ChunksMoved w w') {p : Point} (hp : p ∈ w.points) : w'.InIndex p.id := by
  obtain ⟨c, hmem, hid, hs⟩ := hV.points p hp
  cases hcm with
  | kept h _ _ => exact World.InIndex.kept ⟨c, hmem, hid, hs⟩ h
  | claimed _ _ _ _ _ _ _ _ h =>
    refine ⟨_, h ▸ (mem_markIndexing hc.rows.keys).mpr ⟨c, hmem, rfl⟩, ?_⟩
    split_ifs
    · exact ⟨hid, .inl rfl⟩
    · exact ⟨hid, hs⟩
  | @rebuilt o context chunks hwork ho hbefore _ _ _ =>
    -- the chunk stage owns the document, so no chunk is in the index
    rcases hs with hs | hs
    · have hown : w.OwnedBy .buildChunks := ⟨o, _, ho, hwork, rfl⟩
      cases hown.unique (hc.rows.indexing c hmem hs)
    · cases hbefore.symm.trans (hc.rows.indexed c hmem hs)
  | indexed _ _ _ _ _ _ h =>
    refine ⟨_, h ▸ mem_markIndexedMany.mpr ⟨c, hmem, rfl⟩, ?_⟩
    split_ifs
    · exact ⟨hid, .inr rfl⟩
    · exact ⟨hid, hs⟩
  | @compensated i o snapshot hphase _ _ _ h =>
    refine ⟨_, h ▸ mem_markFailed.mpr ⟨c, hmem, rfl⟩, ?_⟩
    have hdeleted : c.id ∉ snapshot.chunkIds := by
      rw [hid]
      exact hV.deleted i o snapshot hphase p hp
    rw [if_neg (fun h => hdeleted h.1)]
    exact ⟨hid, hs⟩

theorem VectorState.points_moved (hV : VectorState w) (hc : ChunkState w)
    (hm : Moved settings w act w') {p : Point} (hp : p ∈ w'.points) : w'.InIndex p.id := by
  cases hm.points with
  | kept h =>
    rw [h] at hp
    exact hV.inIndex_after hc (hm.chunks hc.roles) hp
  | @upserted o context rest hwork hrows h =>
    have hkept : w'.rows.childChunks = w.rows.childChunks := by rw [hrows]
    rw [h, mem_upsertPoints] at hp
    rcases hp with ⟨hp, -⟩ | hp
    · exact (hV.points p hp).kept hkept
    · obtain ⟨x, hx, rfl⟩ := List.mem_map.mp hp
      exact (inIndex_of_work hc hV hwork (List.mem_of_mem_take hx)).kept hkept
  | deleted _ _ hrows h =>
    have hkept : w'.rows.childChunks = w.rows.childChunks := by rw [hrows]
    rw [h, mem_deletePoints] at hp
    exact (hV.points p hp.1).kept hkept

theorem VectorState.moved (hV : VectorState w) (hc : ChunkState w) (hm : Moved settings w act w') :
    VectorState w' where
  fenced := hV.fenced.moved hm
  owner _ _ _ ha' := hV.owner_moved hc.roles hm ha'
  points _ hp := hV.points_moved hc hm hp
  deleted _ _ _ hc' := hV.deleted_moved hm hc'

end Step

theorem reachable_vectors {settings : Settings} {w : World}
    (hw : (pipeline settings).Reachable w) : VectorState w := by
  refine Machine.ReachableVia.invariant (P := VectorState) ?_ ?_ hw
  · intro w h
    exact Uploaded.vectorState h
  · intro w act w' hr hV _ hs
    exact hV.moved (reachable_chunks hr) (reachable_moved hr hs)

/-- **No orphan vectors.**  A point belongs to a chunk row that is being indexed or is indexed; the
transaction that replaces the chunk rows leaves no point behind. -/
theorem no_orphan_vectors (settings : Settings) :
    (∀ w, (pipeline settings).Reachable w → ∀ p ∈ w.points, ∃ c ∈ w.rows.childChunks,
      c.id = p.id ∧ (c.vectorStatus = .indexing ∨ c.vectorStatus = .indexed)) ∧
    ∀ w w' o, (pipeline settings).Reachable w → w.status = .chunking →
      step settings w (.complete o) = some w' → w'.status = .chunked → w'.points = [] := by
  refine ⟨fun w hw => (reachable_vectors hw).points, ?_⟩
  intro w w' o hw hbefore hs hafter
  have hpoints := (reachable_vectors (reachable_step hw hs)).points
  rw [List.eq_nil_iff_forall_not_mem]
  intro p hp
  obtain ⟨c, hmem, -, hc⟩ := hpoints p hp
  cases reachable_moved hw hs with
  | halted _ _ _ => cases hbefore.symm.trans hafter
  | filesMoved _ ha _ => cases ha
  | processCompleted _ _ => cases hafter
  | chunksCompleted _ _ =>
    obtain ⟨id, parentId, child, rfl⟩ := of_mem_createChildren hmem
    rcases hc with hc | hc <;> cases hc
  | indexCompleted _ _ _ _ _ => cases hafter
  | ended _ ha => cases ha

/-! ### Chunks that are built anew -/

/-- The index stage has upserted its points. -/
def upserted : World :=
  uploadedText.afterAll (processAll "p" ++ chunkAll "c" ++ [.start "i" .indexVectors, .claim "i",
    .acquire "i", .assertOwned "i", .upsert "i"])

/-- It fails, and the document is processed again; the chunk stage has built its chunks. -/
def rebuilding : World :=
  upserted.afterAll (.stop "i" :: compensateIndex 0 "i" ++ processAll "q" ++ (chunkAll "d").dropLast)

theorem no_orphan_vectors_rebuilding :
    (∃ p ∈ upserted.points, ∃ c ∈ upserted.rows.childChunks, c.id = p.id ∧
      (c.vectorStatus = .indexing ∨ c.vectorStatus = .indexed)) ∧
    (rebuilding.afterAll [.complete "d"]).points = [] := by
  obtain ⟨howned, hreplaced⟩ := no_orphan_vectors plainSettings
  have hupserted : (pipeline plainSettings).Reachable upserted :=
    World.reachable_afterAll (.init uploadedText_uploaded) _
  exact ⟨⟨_, .head _, howned _ hupserted _ (.head _)⟩,
    hreplaced rebuilding _ "d" (World.reachable_afterAll hupserted _) rfl rfl rfl⟩

/-! ## Searchable documents -/

section Searchable

variable {settings : Settings} {w w' : World} {act : Action}

/-- The operation for which the step deletes points, and their ids. -/
def World.deletion (w : World) : Action → Option (String × List Nat)
  | .deletePoints i =>
    match w.compensations i with
    | some ⟨operationId, .indexFenced snapshot⟩ => some (operationId, snapshot.chunkIds)
    | _ => none
  | _ => none

/-- A compensation deletes points for the owner, or finds none of its snapshot. -/
def DeletesOwn (w : World) (act : Action) : Prop :=
  ∀ d ∈ w.deletion act, w.owner = some d.1 ∨ ∀ p ∈ w.points, p.id ∉ d.2

instance (w : World) (act : Action) : Decidable (DeletesOwn w act) :=
  inferInstanceAs (Decidable (∀ d ∈ w.deletion act, w.owner = some d.1 ∨ ∀ p ∈ w.points, p.id ∉ d.2))

/-- What has been upserted is there. -/
structure Searchable (w : World) : Prop where
  indexed : w.status = .indexed → ∀ c ∈ w.rows.childChunks, w.HasPoint c.id
  upserted : ∀ o a work, w.attempts o = some a → work ∈ a.indexWork →
    w.WorkedBy o .indexVectors → ∀ x ∈ work.1.chunks, x ∈ work.2 ∨ w.HasPoint x.chunkId

theorem Uploaded.searchable (h : Uploaded w) : Searchable w := by
  refine ⟨?_, ?_⟩
  · intro _ c hc
    rw [h.childChunks] at hc
    cases hc
  · intro o a work ha
    rw [h.attempts] at ha
    cases ha

/-- Points stay, unless the document has failed. -/
theorem Moved.hasPoint (hm : Moved settings w act w') (hc : ChunkState w) (hok : DeletesOwn w act)
    (hs : w.status ≠ .failed) {id : Nat} (h : w.HasPoint id) : w'.HasPoint id := by
  obtain ⟨p, hp, hid⟩ := h
  cases hm.points with
  | kept hpoints => exact ⟨p, hpoints ▸ hp, hid⟩
  | @upserted o context rest _ _ hpoints =>
    by_cases hnew : p.id ∈ ((rest.take settings.embeddingBatchSize).map (buildPoint context)).map
      (·.id)
    · obtain ⟨q, hq, hqid⟩ := List.mem_map.mp hnew
      exact ⟨q, hpoints ▸ mem_upsertPoints.mpr (.inr hq), hqid.trans hid⟩
    · exact ⟨p, hpoints ▸ mem_upsertPoints.mpr (.inl ⟨hp, hnew⟩), hid⟩
  | @deleted i o snapshot ha hphase _ hpoints =>
    subst ha
    have hdeletion : w.deletion (.deletePoints i) = some (o, snapshot.chunkIds) := by
      simp only [World.deletion, hphase]
    rcases hok _ hdeletion with ho | hnone
    · exact absurd ((hc.work.snapshot i _ snapshot hphase rfl).2 ho).1 hs
    · exact ⟨p, hpoints ▸ mem_deletePoints.mpr ⟨hp, hnone p hp⟩, hid⟩

theorem Searchable.upserted_moved (hS : Searchable w) (hc : ChunkState w)
    (hm : Moved settings w act w') (hok : DeletesOwn w act) {o : String} {a' : Attempt}
    {work : IndexingContext × List IndexingChunkInput} (ha' : w'.attempts o = some a')
    (hwork : work ∈ a'.indexWork) (hwork' : w'.WorkedBy o .indexVectors) :
    ∀ x ∈ work.1.chunks, x ∈ work.2 ∨ w'.HasPoint x.chunkId := by
  intro x hx
  rcases hm.indexWork o a' ha' work hwork with ⟨a, rest, ha, hold, hrest⟩ | ⟨-, -, hall, -, -⟩
  · have hstage : a.stage = .indexVectors := by
      revert hold
      cases a <;> first | exact fun _ => rfl | exact fun h => nomatch h
    have hbefore := hm.workedBy_before ⟨a, ha, Attempt.claimed_of_indexWork hold, hstage⟩ hwork'
    have hstay : w.HasPoint x.chunkId → w'.HasPoint x.chunkId := by
      refine hm.hasPoint hc hok ?_
      rw [hbefore.2]
      decide
    rcases hS.upserted o a _ ha hold hbefore x hx with hin | hpoint
    · rcases hrest with hrest | ⟨-, hrest, hpoints⟩
      · rw [hrest]
        exact .inl hin
      · -- the batch is upserted in this step
        rw [hrest]
        rw [← List.take_append_drop settings.embeddingBatchSize rest, List.mem_append] at hin
        rcases hin with htake | hdrop
        · refine .inr ⟨buildPoint work.1 x, ?_, rfl⟩
          rw [hpoints, mem_upsertPoints]
          exact .inr (List.mem_map_of_mem htake)
        · exact .inl hdrop
    · exact .inr (hstay hpoint)
  · rw [hall]
    exact .inl hx

theorem Searchable.indexed_moved (hS : Searchable w) (hc : ChunkState w)
    (hm : Moved settings w act w') (hok : DeletesOwn w act) (hs : w'.status = .indexed) :
    ∀ c ∈ w'.rows.childChunks, w'.HasPoint c.id := by
  intro c' hc'
  cases hm.chunks hc.roles with
  | kept h _ hbefore =>
    rw [h] at hc'
    have hstatus := hbefore hs
    refine hm.hasPoint hc hok ?_ (hS.indexed hstatus c' hc')
    rw [hstatus]
    decide
  | claimed _ _ _ hs' _ _ _ _ _ => cases hs.symm.trans hs'
  | rebuilt _ _ _ _ hs' _ => cases hs.symm.trans hs'
  | @indexed o context hwork ho hbefore _ _ hcount h =>
    rw [h] at hc'
    obtain ⟨c, hmem, he⟩ := mem_markIndexedMany.mp hc'
    have hid : c'.id = c.id := by
      rw [he]
      split <;> rfl
    -- no chunk was indexed before, so the chunk is one of the attempt's
    have htaken : c.id ∈ context.chunkIds := by
      by_contra hnot
      rw [if_neg hnot] at he
      have hactive := (hc.rows.rows c hmem).1
      have hindexed := DocumentRows.countActiveNotIndexed_eq_zero.mp hcount c (he ▸ hc') hactive
      cases hbefore.symm.trans (hc.rows.indexed c hmem hindexed)
    obtain ⟨x, hx, hxid⟩ := List.mem_map.mp htaken
    rcases hS.upserted o _ (context, []) hwork rfl ⟨ho, hbefore⟩ x hx with hnil | hpoint
    · cases hnil
    · rw [hid, ← hxid]
      refine hm.hasPoint hc hok ?_ hpoint
      rw [hbefore]
      decide
  | compensated _ _ _ hs' _ => cases hs.symm.trans hs'

theorem Searchable.moved (hS : Searchable w) (hc : ChunkState w) (hm : Moved settings w act w')
    (hok : DeletesOwn w act) : Searchable w' where
  indexed hs := hS.indexed_moved hc hm hok hs
  upserted _ _ _ ha' hwork hwork' := hS.upserted_moved hc hm hok ha' hwork hwork'

/-- **Indexed means searchable**, where no compensation deletes points of another operation. -/
theorem indexed_searchable (settings : Settings) (w : World)
    (hw : (pipeline settings).ReachableVia DeletesOwn w) (hs : w.status = .indexed) :
    ∀ c ∈ w.rows.childChunks, c.status = .active →
      c.vectorStatus = .indexed ∧ ∃ p ∈ w.points, p.id = c.id := by
  have hS : Searchable w := by
    refine Machine.ReachableVia.invariant (P := Searchable) ?_ ?_ hw
    · intro w h
      exact Uploaded.searchable h
    · intro w act w' hr hS hok hs
      exact hS.moved (reachable_chunks hr.reachable) (reachable_moved hr.reachable hs) hok
  intro c hc _
  exact ⟨((reachable_chunks hw.reachable).rows.searchable hs).2 c hc, hS.indexed hs c hc⟩

/-! ### Two compensations of one operation -/

/-- Both compensations of the first index operation have read their snapshot. -/
def compensatedTwice : List Action :=
  processAll "p" ++ chunkAll "c" ++
    [.start "i" .indexVectors, .claim "i", .acquire "i", .assertOwned "i", .upsert "i", .stop "i",
      .compensate 0 "i", .prepare 0, .compensate 1 "i", .prepare 1]

/-- The first one ends, and another operation indexes the document. -/
def indexedBetween : List Action :=
  compensatedTwice ++ [.fence 0, .deletePoints 0, .finish 0] ++ indexAll "j"

/-- The second one deletes the points of the indexed document. -/
theorem late_compensation_unindexes :
    ¬ ∀ (settings : Settings) (w : World), (pipeline settings).Reachable w → w.status = .indexed →
      ∀ c ∈ w.rows.childChunks, c.status = .active →
        c.vectorStatus = .indexed ∧ ∃ p ∈ w.points, p.id = c.id := by
  intro h
  have hmissing := h plainSettings
    (uploadedText.afterAll (indexedBetween ++ [.fence 1, .deletePoints 1]))
    (World.reachable_afterAll (.init uploadedText_uploaded) _) rfl _ (.head _) rfl
  revert hmissing
  decide

/-- Before that, the document is searchable. -/
theorem indexed_searchable_between :
    ∃ c ∈ (uploadedText.afterAll indexedBetween).rows.childChunks, c.vectorStatus = .indexed ∧
      ∃ p ∈ (uploadedText.afterAll indexedBetween).points, p.id = c.id := by
  have hrun : (pipeline plainSettings).RunVia DeletesOwn uploadedText indexedBetween
      (uploadedText.afterAll indexedBetween) := .of_runWhile rfl
  exact ⟨_, .head _, indexed_searchable plainSettings _
    (hrun.reachableVia (.init uploadedText_uploaded)) rfl _ (.head _) rfl⟩

end Searchable

end DocFlow.Pipeline
