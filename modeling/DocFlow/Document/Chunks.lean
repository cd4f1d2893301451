import DocFlow.Document.Ownership

/-!
# The child chunks of the document

A chunk is being indexed only while an operation of the indexing stage owns the document, and it is
indexed only once the document is, which is final.  `ChunksMoved` is the part of a step that concerns
the chunk rows; `ChunkRows` is the invariant, and `IndexWork` ties the data of the indexing attempts
and the snapshots of their compensations to the rows.
-/

namespace DocFlow.Pipeline

/-! ## Rewritten chunks -/

section Rows

variable {rows : DocumentRows}

theorem mem_markIndexing (hkeys : (rows.childChunks.map (·.id)).Nodup)
    {statuses : List VectorStatus} {c' : ChildChunk} :
    c' ∈ (rows.markIndexing (rows.listIndexable statuses)).childChunks ↔
      ∃ c ∈ rows.childChunks, c' =
        if c.status = .active ∧ c.vectorStatus ∈ statuses then { c with vectorStatus := .indexing }
        else c := by
  have hid : ∀ c ∈ rows.childChunks, (c.id ∈ (rows.listIndexable statuses).map (·.id) ↔
      c.status = .active ∧ c.vectorStatus ∈ statuses) := by
    intro c hc
    rw [List.mem_map]
    constructor
    · rintro ⟨d, hd, hdc⟩
      obtain ⟨hd, hs⟩ := DocumentRows.mem_listIndexable.mp hd
      obtain rfl := List.inj_on_of_nodup_map hkeys hd hc hdc
      exact hs
    · intro hs
      exact ⟨c, DocumentRows.mem_listIndexable.mpr ⟨hc, hs⟩, rfl⟩
  rw [DocumentRows.markIndexing, DocumentRows.mem_updateChunks]
  constructor
  · rintro ⟨c, hc, rfl⟩
    exact ⟨c, hc, if_congr (hid c hc) rfl rfl⟩
  · rintro ⟨c, hc, rfl⟩
    exact ⟨c, hc, if_congr (hid c hc) rfl rfl⟩

theorem mem_map_id_listByIds {chunkIds : List Nat} {c : ChildChunk} (hc : c ∈ rows.childChunks) :
    c.id ∈ (rows.listByIds chunkIds).map (·.id) ↔ c.id ∈ chunkIds := by
  rw [List.mem_map]
  constructor
  · rintro ⟨d, hd, hdc⟩
    rw [← hdc]
    exact (DocumentRows.mem_listByIds.mp hd).2
  · intro h
    exact ⟨c, DocumentRows.mem_listByIds.mpr ⟨hc, h⟩, rfl⟩

theorem mem_markIndexedMany {chunkIds : List Nat} {c' : ChildChunk} :
    c' ∈ (rows.markIndexedMany (rows.listByIds chunkIds)).childChunks ↔
      ∃ c ∈ rows.childChunks, c' =
        if c.id ∈ chunkIds then { c with vectorStatus := .indexed } else c := by
  rw [DocumentRows.markIndexedMany, DocumentRows.mem_updateChunks]
  constructor
  · rintro ⟨c, hc, rfl⟩
    exact ⟨c, hc, if_congr (mem_map_id_listByIds hc) rfl rfl⟩
  · rintro ⟨c, hc, rfl⟩
    exact ⟨c, hc, if_congr (mem_map_id_listByIds hc) rfl rfl⟩

theorem mem_markFailed {chunkIds : List Nat} {c' : ChildChunk} :
    c' ∈ (rows.markFailed (rows.listByIds chunkIds)).childChunks ↔
      ∃ c ∈ rows.childChunks, c' =
        if c.id ∈ chunkIds ∧ c.vectorStatus = .indexing then { c with vectorStatus := .failed }
        else c := by
  have hone : ∀ c ∈ rows.childChunks,
      (if c.id ∈ (rows.listByIds chunkIds).map (·.id) then
        if c.vectorStatus = .indexing then { c with vectorStatus := VectorStatus.failed } else c
      else c) =
      if c.id ∈ chunkIds ∧ c.vectorStatus = .indexing then
        { c with vectorStatus := VectorStatus.failed }
      else c := by
    intro c hc
    by_cases hid : c.id ∈ chunkIds
    · by_cases hs : c.vectorStatus = .indexing
      · rw [if_pos ((mem_map_id_listByIds hc).mpr hid), if_pos hs, if_pos ⟨hid, hs⟩]
      · rw [if_pos ((mem_map_id_listByIds hc).mpr hid), if_neg hs, if_neg (fun h => hs h.2)]
    · rw [if_neg (mt (mem_map_id_listByIds hc).mp hid), if_neg (fun h => hid h.1)]
  rw [DocumentRows.markFailed, DocumentRows.mem_updateChunks]
  constructor
  · rintro ⟨c, hc, rfl⟩
    exact ⟨c, hc, hone c hc⟩
  · rintro ⟨c, hc, rfl⟩
    exact ⟨c, hc, hone c hc⟩

theorem map_id_updateChunks {chunkIds : List Nat} {f : ChildChunk → ChildChunk}
    (hf : ∀ c, (f c).id = c.id) :
    (rows.updateChunks chunkIds f).childChunks.map (·.id) = rows.childChunks.map (·.id) := by
  simp only [DocumentRows.updateChunks, List.map_map]
  refine List.map_congr_left fun c _ => ?_
  show (if c.id ∈ chunkIds then f c else c).id = c.id
  split
  · exact hf c
  · rfl

/-- The rows of a new chunk. -/
theorem of_mem_createChildren {context : ChunkingContext} {chunks : ChunkBuildResult}
    {parents : List ParentBlock} {next : Nat} {c : ChildChunk}
    (hc : c ∈ createChildren context chunks parents next) :
    ∃ id parentId child, c = buildChildChunk context id parentId child := by
  unfold createChildren at hc
  obtain ⟨⟨⟨parentId, child⟩, i⟩, -, rfl⟩ := List.mem_map.mp hc
  exact ⟨_, _, _, rfl⟩

theorem nodup_createChildren (context : ChunkingContext) (chunks : ChunkBuildResult)
    (parents : List ParentBlock) (next : Nat) :
    ((createChildren context chunks parents next).map (·.id)).Nodup := by
  unfold createChildren
  generalize (parents.flatMap fun parent =>
    (chunks.children parent.blockIndex).map fun child => (parent.id, child)) = pairs
  have hids : (pairs.zipIdx.map
      (fun x => (buildChildChunk context (next + x.2) x.1.1 x.1.2 : ChildChunk))).map (·.id) =
      (pairs.zipIdx.map Prod.snd).map (next + ·) := by
    simp only [List.map_map]
    rfl
  rw [hids, List.zipIdx_map_snd]
  exact List.Nodup.map (fun a b h => by simpa using h) List.nodup_range'

end Rows

/-! ## The step -/

/-- An operation of the stage owns the document. -/
def World.OwnedBy (w : World) (stage : Stage) : Prop :=
  ∃ o a, w.owner = some o ∧ w.attempts o = some a ∧ a.stage = stage

section Step

variable {settings : Settings} {w w' : World} {act : Action}

theorem World.OwnedBy.unique {stage stage' : Stage} (h : w.OwnedBy stage) (h' : w.OwnedBy stage') :
    stage = stage' := by
  obtain ⟨o, a, ho, ha, rfl⟩ := h
  obtain ⟨o', a', ho', ha', rfl⟩ := h'
  obtain rfl := Option.some.inj (ho.symm.trans ho')
  obtain rfl := Option.some.inj (ha.symm.trans ha')
  rfl

theorem not_ownedBy_of_free {stage : Stage} (h : w.owner = none) : ¬ w.OwnedBy stage := by
  rintro ⟨o, a, ho, -, -⟩
  rw [h] at ho
  cases ho

theorem Moved.ownedBy_kept (hm : Moved settings w act w') (hr : Roles w)
    (ho : w'.owner = w.owner) (stage : Stage) : w'.OwnedBy stage ↔ w.OwnedBy stage := by
  constructor
  · rintro ⟨o, a', ho', ha', hs⟩
    obtain ⟨a, ha, -, -⟩ := hr.owner o (ho.symm.trans ho')
    obtain ⟨b, hb, hp⟩ := hm.progress o a ha
    obtain rfl := Option.some.inj (ha'.symm.trans hb)
    exact ⟨o, a, ho.symm.trans ho', ha, hp.stage.symm.trans hs⟩
  · rintro ⟨o, a, ho', ha, hs⟩
    obtain ⟨b, hb, hp⟩ := hm.progress o a ha
    exact ⟨o, b, ho.trans ho', hb, hp.stage.trans hs⟩

/-- What a step does to the chunk rows, and to the hold of the indexing stage on them. -/
inductive ChunksMoved (w w' : World) : Prop
  | kept (h : w'.rows.childChunks = w.rows.childChunks)
      (ho : w'.OwnedBy .indexVectors ↔ w.OwnedBy .indexVectors)
      (hs : w'.status = .indexed → w.status = .indexed)
  | claimed {o : String} {context : IndexingContext}
      (hfree : w.owner = none) (ho : w'.owner = some o) (hown : w'.OwnedBy .indexVectors)
      (hs : w'.status = .indexing)
      (hstatus : w.status = .chunked ∨ w.status = .failed)
      (hsome : w.rows.listIndexable indexableVectorStatuses ≠ [])
      (hwork : w'.attempts o = some (.indexing context context.chunks))
      (hcontext : context.chunks = (w.rows.listIndexable indexableVectorStatuses).map toChunkInput)
      (h : w'.rows.childChunks =
        (w.rows.markIndexing (w.rows.listIndexable indexableVectorStatuses)).childChunks)
  | rebuilt {o : String} {context : ChunkingContext} {chunks : ChunkBuildResult}
      (hwork : w.attempts o = some (.chunksBuilt context chunks)) (ho : w.owner = some o)
      (hbefore : w.status = .chunking) (hfree : w'.owner = none) (hs : w'.status = .chunked)
      (h : w'.rows.childChunks = createChildren context chunks
        (createParents context chunks w.rows.nextParentId) w.rows.nextChunkId)
  | indexed {o : String} {context : IndexingContext}
      (hwork : w.attempts o = some (.indexing context [])) (ho : w.owner = some o)
      (hbefore : w.status = .indexing) (hfree : w'.owner = none) (hs : w'.status = .indexed)
      (hcount :
        (w.rows.markIndexedMany (w.rows.listByIds context.chunkIds)).countActiveNotIndexed = 0)
      (h : w'.rows.childChunks =
        (w.rows.markIndexedMany (w.rows.listByIds context.chunkIds)).childChunks)
  | compensated {i : Nat} {o : String} {snapshot : IndexingCompensationSnapshot}
      (hphase : w.compensations i = some ⟨o, .pointsDeleted snapshot⟩) (ho : w.owner = some o)
      (hfree : w'.owner = none) (hs : w'.status = .failed)
      (h : w'.rows.childChunks =
        (w.rows.markFailed (w.rows.listByIds snapshot.chunkIds)).childChunks)

/-- A step that leaves the rows alone. -/
theorem Moved.chunks_of_rows (hm : Moved settings w act w') (hr : Roles w)
    (h : w'.rows = w.rows) : ChunksMoved w w' := by
  refine .kept (by rw [h]) (hm.ownedBy_kept hr ?_ _) ?_
  · rw [World.owner, h]
  · rw [World.status, h]
    exact id

/-- A step that takes the document from, or gives it to, another stage than indexing. -/
theorem chunks_of_other (stage : Stage) (hne : stage ≠ .indexVectors)
    (h : w'.rows.childChunks = w.rows.childChunks)
    (hbefore : w.owner = none ∨ w.OwnedBy stage) (hafter : w'.owner = none ∨ w'.OwnedBy stage)
    (hs : w'.status ≠ .indexed) : ChunksMoved w w' := by
  have hnot : ∀ v : World, v.owner = none ∨ v.OwnedBy stage → ¬ v.OwnedBy .indexVectors := by
    rintro v (hv | hv) hi
    · exact not_ownedBy_of_free hv hi
    · exact hne (hv.unique hi)
  exact .kept h (iff_of_false (hnot _ hafter) (hnot _ hbefore)) (fun hi => absurd hi hs)

theorem Roles.ownedBy_of_phase (hr : Roles w) {i : Nat} {o : String} {phase : CompensationPhase}
    {stage : Stage} (hi : w.compensations i = some ⟨o, phase⟩) (ho : w.owner = some o)
    (hof : ∀ stage', phase.Of stage' → stage' = stage) : w.OwnedBy stage := by
  obtain ⟨a, ha, hphase⟩ := hr.matching i _ hi
  exact ⟨o, a, ho, ha, hof _ hphase⟩

theorem Moved.chunks (hm : Moved settings w act w') (hr : Roles w) : ChunksMoved w w' := by
  have hm' := hm
  cases hm with
  | @claimedProcess o context h hc hk hsource =>
    exact chunks_of_other .process (by decide) rfl (.inl hc.free)
      (.inr ⟨o, _, rfl, attempts_new .., rfl⟩) (fun h => DocumentStatus.noConfusion h)
  | @claimedChunks o context h hc hnew hsource hk hid hkb hdomain =>
    exact chunks_of_other .buildChunks (by decide) rfl (.inl hc.free)
      (.inr ⟨o, _, rfl, attempts_new .., rfl⟩) (fun h => DocumentStatus.noConfusion h)
  | @claimedIndex o context h hc hnone hsome hchunks hk =>
    have hstatus : w.status = .chunked ∨ w.status = .failed := by
      simpa [Stage.claimableStatuses] using hc.status
    exact .claimed hc.free rfl ⟨o, _, rfl, attempts_new .., rfl⟩ rfl hstatus hsome
      (attempts_new ..) hchunks rfl
  | @processCompleted o result h hw =>
    refine chunks_of_other .process (by decide) ?_ (.inr ⟨o, _, hw.owner, h, rfl⟩)
      (.inl rfl) (fun h => DocumentStatus.noConfusion h)
    show (persistResult w.rows result).childChunks = w.rows.childChunks
    unfold persistResult persistSecondary
    cases result.secondaryArtifact <;> rfl
  | chunksCompleted h hw => exact .rebuilt h hw.owner hw.status rfl rfl rfl
  | indexCompleted h hw hlen hindexing hcount =>
    exact .indexed h hw.owner hw.status rfl rfl hcount rfl
  | processFailed h ho hs =>
    exact .kept rfl (hm'.ownedBy_kept hr rfl _) (fun h => DocumentStatus.noConfusion h)
  | chunksFailed h ho hs =>
    exact chunks_of_other .buildChunks (by decide) rfl
      (.inr (hr.ownedBy_of_phase h ho fun _ h => h)) (.inl rfl)
      (fun h => DocumentStatus.noConfusion h)
  | indexPrepared h ho hs hids =>
    exact .kept rfl (hm'.ownedBy_kept hr rfl _) (fun h => DocumentStatus.noConfusion h)
  | released h ho =>
    refine chunks_of_other .process (by decide) rfl
      (.inr (hr.ownedBy_of_phase h ho fun _ h => h)) (.inl rfl) ?_
    show w.status ≠ .indexed
    rw [(hr.clearing _ _ [] h rfl).2 ho]
    decide
  | indexFailed h ho hs => exact .compensated h ho rfl rfl rfl
  | lifecycleChanged => exact .kept rfl (hm'.ownedBy_kept hr rfl _) id
  | _ => exact hm'.chunks_of_rows hr rfl

/-! ## The invariant of the rows -/

/-- The context of an attempt of the chunk stage. -/
def Attempt.chunkContext : Attempt → Option ChunkingContext
  | chunking context => some context
  | chunksBuilt context _ => some context
  | _ => none

/-- A row is of the document it is stored under. -/
def DocumentRows.Own (rows : DocumentRows) (docId kbId : Nat) (domainCode : String) : Prop :=
  docId = rows.document.id ∧ kbId = rows.document.kbId ∧ domainCode = rows.document.domainCode

theorem Moved.own (hm : Moved settings w act w') (docId kbId : Nat) (domainCode : String) :
    w'.rows.Own docId kbId domainCode ↔ w.rows.Own docId kbId domainCode := by
  cases hm <;> exact Iff.rfl

/-- A context of the chunk stage was there before, or its operation claims in this step. -/
def ContextBefore (w w' : World) (o : String) (a' : Attempt) : Prop :=
  ∀ context ∈ a'.chunkContext, (∃ a, w.attempts o = some a ∧ context ∈ a.chunkContext) ∨
    w.owner = none ∧ w'.owner = some o ∧ w.rows.cleanedSource = some context.cleanedPath ∧
      w'.rows = w.rows.claimed .buildChunks o ∧
      w.rows.Own context.documentId context.kbId context.domainCode

theorem Moved.contexts (hm : Moved settings w act w') :
    ∀ o a', w'.attempts o = some a' → ContextBefore w w' o a' := by
  have hsame : ∀ v : World, ∀ o a', w.attempts o = some a' → ContextBefore w v o a' :=
    fun v o a' ha context hc => .inl ⟨a', ha, hc⟩
  have hnone : ∀ {v : World} {o : String} {a' : Attempt}, a'.chunkContext = none →
      ContextBefore w v o a' := by
    intro v o a' ha context hc
    rw [ha] at hc
    cases hc
  cases hm with
  | started _ => exact World.forall_setAttempt (hsame _) (hnone rfl)
  | halted _ _ _ => exact World.forall_setAttempt (hsame _) (hnone rfl)
  | claimedProcess _ _ _ _ => exact World.forall_setAttempt (hsame _) (hnone rfl)
  | claimedChunks _ hc _ hsource _ hid hkb hdomain =>
    refine World.forall_setAttempt (hsame _) ?_
    intro context hcontext
    obtain rfl := Option.some.inj (Option.mem_def.mp hcontext)
    exact .inr ⟨hc.free, rfl, hsource, rfl, hid, hkb, hdomain⟩
  | claimedIndex _ _ _ _ _ _ => exact World.forall_setAttempt (hsame _) (hnone rfl)
  | processAcquired _ _ => exact World.forall_setAttempt (hsame _) (hnone rfl)
  | indexAcquired _ _ => exact World.forall_setAttempt (hsame _) (hnone rfl)
  | processOwned _ _ _ => exact World.forall_setAttempt (hsame _) (hnone rfl)
  | indexOwned _ _ _ => exact World.forall_setAttempt (hsame _) (hnone rfl)
  | filesMoved _ _ hf =>
    exact World.forall_setAttempt (hsame _) (hnone (by cases hf <;> rfl))
  | stagingCleared _ _ => exact World.forall_setAttempt (hsame _) (hnone rfl)
  | processCompleted _ _ => exact World.forall_setAttempt (hsame _) (hnone rfl)
  | chunksBuilt ha _ =>
    exact World.forall_setAttempt (hsame _) (fun context hc => .inl ⟨_, ha, hc⟩)
  | chunksCompleted _ _ => exact World.forall_setAttempt (hsame _) (hnone rfl)
  | upserted _ => exact World.forall_setAttempt (hsame _) (hnone rfl)
  | indexCompleted _ _ _ _ _ => exact World.forall_setAttempt (hsame _) (hnone rfl)
  | _ => exact hsame _

/-- The contexts of the chunk stage are of the document. -/
def OwnContexts (w : World) : Prop :=
  ∀ o a, w.attempts o = some a → ∀ context ∈ a.chunkContext,
    w.rows.Own context.documentId context.kbId context.domainCode

theorem OwnContexts.moved (h : OwnContexts w) (hm : Moved settings w act w') : OwnContexts w' := by
  intro o a' ha' context hc
  rw [hm.own]
  rcases hm.contexts o a' ha' context hc with ⟨a, ha, hc⟩ | ⟨-, -, -, -, hown⟩
  · exact h o a ha context hc
  · exact hown

/-- What holds of the chunk rows. -/
structure ChunkRows (w : World) : Prop where
  keys : (w.rows.childChunks.map (·.id)).Nodup
  rows : ∀ c ∈ w.rows.childChunks, c.status = .active ∧ w.rows.Own c.docId c.kbId c.domainCode
  contexts : OwnContexts w
  /-- a chunk is being indexed by the owner -/
  indexing : ∀ c ∈ w.rows.childChunks, c.vectorStatus = .indexing → w.OwnedBy .indexVectors
  indexed : ∀ c ∈ w.rows.childChunks, c.vectorStatus = .indexed → w.status = .indexed
  searchable : w.status = .indexed →
    w.owner = none ∧ ∀ c ∈ w.rows.childChunks, c.vectorStatus = .indexed
  claimed : w.OwnedBy .indexVectors → ∃ c ∈ w.rows.childChunks, c.vectorStatus = .indexing

theorem Uploaded.chunkRows (h : Uploaded w) : ChunkRows w := by
  have hnone : ∀ c, ¬ c ∈ w.rows.childChunks := by
    intro c hc
    rw [h.childChunks] at hc
    cases hc
  refine ⟨?_, fun c hc => absurd hc (hnone c), ?_, fun c hc => absurd hc (hnone c),
    fun c hc => absurd hc (hnone c), ?_, fun ho => absurd ho (not_ownedBy_of_free h.owner)⟩
  · rw [h.childChunks]
    exact List.nodup_nil
  · intro o a ha
    rw [h.attempts] at ha
    cases ha
  · intro hs
    rw [World.status, h.status] at hs
    cases hs

/-- The indexed status is final. -/
theorem ChunkRows.indexed_after (hc : ChunkRows w) (hm : Moved settings w act w')
    (hs : w.status = .indexed) : w'.status = .indexed := by
  have hfree := (hc.searchable hs).1
  cases hm.handover with
  | kept hs' _ => exact hs'.trans hs
  | @claimed o stage _ _ hclaim _ _ _ =>
    have hst := hclaim.status
    rw [show w.rows.document.status = .indexed from hs] at hst
    exact absurd hst (by cases stage <;> decide)
  | completed _ hw _ _ =>
    have hown : w.owner = some _ := hw.owner
    rw [hfree] at hown
    cases hown
  | failed _ hown _ _ _ =>
    rw [hfree] at hown
    cases hown
  | released _ hown _ _ =>
    rw [hfree] at hown
    cases hown

theorem ChunkRows.keys_moved (hc : ChunkRows w) (hm : ChunksMoved w w') :
    (w'.rows.childChunks.map (·.id)).Nodup := by
  cases hm with
  | kept h _ _ =>
    rw [h]
    exact hc.keys
  | claimed _ _ _ _ _ _ _ _ h =>
    rw [h, DocumentRows.markIndexing, map_id_updateChunks]
    · exact hc.keys
    · intro c
      rfl
  | rebuilt _ _ _ _ _ h =>
    rw [h]
    exact nodup_createChildren ..
  | indexed _ _ _ _ _ _ h =>
    rw [h, DocumentRows.markIndexedMany, map_id_updateChunks]
    · exact hc.keys
    · intro c
      rfl
  | compensated _ _ _ _ h =>
    rw [h, DocumentRows.markFailed, map_id_updateChunks]
    · exact hc.keys
    · intro c
      split <;> rfl

/-- Every chunk row after a step was there before, up to its vector status, or is new. -/
theorem ChunkRows.row_before (hc : ChunkRows w) (hm : ChunksMoved w w') {c' : ChildChunk}
    (hc' : c' ∈ w'.rows.childChunks) :
    (∃ c ∈ w.rows.childChunks, c' = { c with vectorStatus := c'.vectorStatus }) ∨
      ∃ o context chunks id parentId child,
        w.attempts o = some (.chunksBuilt context chunks) ∧ w.owner = some o ∧
        w.status = .chunking ∧ c' = buildChildChunk context id parentId child := by
  cases hm with
  | kept h _ _ =>
    rw [h] at hc'
    exact .inl ⟨c', hc', rfl⟩
  | claimed _ _ _ _ _ _ _ _ h =>
    rw [h, mem_markIndexing hc.keys] at hc'
    obtain ⟨c, hmem, rfl⟩ := hc'
    refine .inl ⟨c, hmem, ?_⟩
    split <;> rfl
  | @rebuilt o context chunks hwork ho hbefore _ _ h =>
    rw [h] at hc'
    obtain ⟨id, parentId, child, rfl⟩ := of_mem_createChildren hc'
    exact .inr ⟨o, context, chunks, id, parentId, child, hwork, ho, hbefore, rfl⟩
  | indexed _ _ _ _ _ _ h =>
    rw [h, mem_markIndexedMany] at hc'
    obtain ⟨c, hmem, rfl⟩ := hc'
    refine .inl ⟨c, hmem, ?_⟩
    split <;> rfl
  | compensated _ _ _ _ h =>
    rw [h, mem_markFailed] at hc'
    obtain ⟨c, hmem, rfl⟩ := hc'
    refine .inl ⟨c, hmem, ?_⟩
    split <;> rfl

theorem ChunkRows.rows_moved (hc : ChunkRows w) (hm : Moved settings w act w') (hr : Roles w)
    {c' : ChildChunk} (hc' : c' ∈ w'.rows.childChunks) :
    c'.status = .active ∧ w'.rows.Own c'.docId c'.kbId c'.domainCode := by
  rw [hm.own]
  rcases hc.row_before (hm.chunks hr) hc' with ⟨c, hmem, he⟩ | ⟨o, context, chunks, id, parentId,
    child, hwork, -, -, rfl⟩
  · obtain ⟨hs, hown⟩ := hc.rows c hmem
    rw [he]
    exact ⟨hs, hown⟩
  · exact ⟨rfl, hc.contexts o _ hwork context rfl⟩

theorem ChunkRows.indexing_moved (hc : ChunkRows w) (hm : ChunksMoved w w')
    (hsnapshot : ∀ i o snapshot, w.compensations i = some ⟨o, .pointsDeleted snapshot⟩ →
      w.owner = some o → ∀ c ∈ w.rows.childChunks, c.vectorStatus = .indexing →
        c.id ∈ snapshot.chunkIds) {c' : ChildChunk} (hc' : c' ∈ w'.rows.childChunks)
    (hs : c'.vectorStatus = .indexing) : w'.OwnedBy .indexVectors := by
  cases hm with
  | kept h ho _ =>
    rw [h] at hc'
    exact ho.mpr (hc.indexing c' hc' hs)
  | claimed _ _ hown _ _ _ _ _ _ => exact hown
  | rebuilt _ _ _ _ _ h =>
    rw [h] at hc'
    obtain ⟨id, parentId, child, rfl⟩ := of_mem_createChildren hc'
    cases hs
  | indexed _ _ _ _ _ hcount h =>
    rw [h] at hc'
    obtain ⟨c, hmem, he⟩ := mem_markIndexedMany.mp hc'
    have hactive : c'.status = .active := by
      rw [he]
      split <;> exact (hc.rows c hmem).1
    rw [DocumentRows.countActiveNotIndexed_eq_zero.mp hcount c' hc' hactive] at hs
    cases hs
  | @compensated i o snapshot hphase ho _ _ h =>
    rw [h] at hc'
    obtain ⟨c, hmem, rfl⟩ := mem_markFailed.mp hc'
    split_ifs at hs with hcond
    exact absurd ⟨hsnapshot i o snapshot hphase ho c hmem hs, hs⟩ hcond

theorem ChunkRows.indexed_moved (hc : ChunkRows w) (hm : Moved settings w act w')
    (hcm : ChunksMoved w w') {c' : ChildChunk} (hc' : c' ∈ w'.rows.childChunks)
    (hs : c'.vectorStatus = .indexed) : w'.status = .indexed := by
  have hold : ∀ c ∈ w.rows.childChunks, c.vectorStatus = .indexed → w'.status = .indexed :=
    fun c hmem hi => hc.indexed_after hm (hc.indexed c hmem hi)
  cases hcm with
  | kept h _ _ =>
    rw [h] at hc'
    exact hold c' hc' hs
  | claimed _ _ _ _ _ _ _ _ h =>
    rw [h, mem_markIndexing hc.keys] at hc'
    obtain ⟨c, hmem, rfl⟩ := hc'
    split_ifs at hs
    exact hold c hmem hs
  | rebuilt _ _ _ _ _ h =>
    rw [h] at hc'
    obtain ⟨id, parentId, child, rfl⟩ := of_mem_createChildren hc'
    cases hs
  | indexed _ _ _ _ hs' _ _ => exact hs'
  | compensated _ _ _ _ h =>
    rw [h, mem_markFailed] at hc'
    obtain ⟨c, hmem, rfl⟩ := hc'
    split_ifs at hs
    exact hold c hmem hs

theorem ChunkRows.searchable_moved (hc : ChunkRows w) (hm : Moved settings w act w')
    (hcm : ChunksMoved w w') (hs : w'.status = .indexed) :
    w'.owner = none ∧ ∀ c ∈ w'.rows.childChunks, c.vectorStatus = .indexed := by
  cases hcm with
  | kept h _ hbefore =>
    obtain ⟨hfree, hall⟩ := hc.searchable (hbefore hs)
    rw [h]
    refine ⟨?_, hall⟩
    cases hm.handover with
    | kept _ ho => exact ho.trans hfree
    | @claimed o stage _ _ _ _ hs' _ =>
      rw [hs'] at hs
      cases stage <;> cases hs
    | completed _ _ _ ho => exact ho
    | failed _ hown _ _ _ =>
      rw [hfree] at hown
      cases hown
    | released _ _ _ ho => exact ho
  | claimed _ _ _ hs' _ _ _ _ _ =>
    rw [hs] at hs'
    cases hs'
  | rebuilt _ _ _ _ hs' _ =>
    rw [hs] at hs'
    cases hs'
  | indexed _ _ _ hfree _ hcount h =>
    refine ⟨hfree, fun c' hc' => ?_⟩
    rw [h] at hc'
    obtain ⟨c, hmem, he⟩ := mem_markIndexedMany.mp hc'
    refine DocumentRows.countActiveNotIndexed_eq_zero.mp hcount c' hc' ?_
    rw [he]
    split <;> exact (hc.rows c hmem).1
  | compensated _ _ _ hs' _ =>
    rw [hs] at hs'
    cases hs'

theorem ChunkRows.claimed_moved (hc : ChunkRows w) (hcm : ChunksMoved w w')
    (ho : w'.OwnedBy .indexVectors) :
    ∃ c ∈ w'.rows.childChunks, c.vectorStatus = .indexing := by
  cases hcm with
  | kept h hown _ =>
    rw [h]
    exact hc.claimed (hown.mp ho)
  | claimed _ _ _ _ _ hsome _ _ h =>
    obtain ⟨c, hmem⟩ := List.exists_mem_of_ne_nil _ hsome
    obtain ⟨hrow, hcond⟩ := DocumentRows.mem_listIndexable.mp hmem
    refine ⟨{ c with vectorStatus := .indexing }, ?_, rfl⟩
    rw [h, mem_markIndexing hc.keys]
    exact ⟨c, hrow, by rw [if_pos hcond]⟩
  | rebuilt _ _ _ hfree _ _ => exact absurd ho (not_ownedBy_of_free hfree)
  | indexed _ _ _ hfree _ _ _ => exact absurd ho (not_ownedBy_of_free hfree)
  | compensated _ _ hfree _ _ => exact absurd ho (not_ownedBy_of_free hfree)

/-! ## The data of the indexing stage -/

/-- What an indexing attempt still has to do. -/
def Attempt.indexWork : Attempt → Option (IndexingContext × List IndexingChunkInput)
  | indexing context rest => some (context, rest)
  | indexingFenced context rest => some (context, rest)
  | indexingOwned context rest => some (context, rest)
  | _ => none

/-- What a compensation is about to delete, or has deleted. -/
def CompensationPhase.snapshot : CompensationPhase → Option IndexingCompensationSnapshot
  | indexWaiting snapshot => some snapshot
  | indexFenced snapshot => some snapshot
  | pointsDeleted snapshot => some snapshot
  | _ => none

/-- The work of an attempt goes on, loses the batch that is upserted, or begins with the claim. -/
def WorkBefore (settings : Settings) (w w' : World) (o : String) (a' : Attempt) : Prop :=
  ∀ work ∈ a'.indexWork,
    (∃ a rest, w.attempts o = some a ∧ (work.1, rest) ∈ a.indexWork ∧
      (work.2 = rest ∨
        a = .indexingOwned work.1 rest ∧ work.2 = rest.drop settings.embeddingBatchSize ∧
          w'.points = upsertPoints w.points
            ((rest.take settings.embeddingBatchSize).map (buildPoint work.1)))) ∨
    w.owner = none ∧ w'.owner = some o ∧ work.2 = work.1.chunks ∧
      work.1.chunks = (w.rows.listIndexable indexableVectorStatuses).map toChunkInput ∧
      w'.rows.childChunks =
        (w.rows.markIndexing (w.rows.listIndexable indexableVectorStatuses)).childChunks

theorem Moved.indexWork (hm : Moved settings w act w') :
    ∀ o a', w'.attempts o = some a' → WorkBefore settings w w' o a' := by
  have hsame : ∀ v : World, ∀ o a', w.attempts o = some a' → WorkBefore settings w v o a' :=
    fun v o a' ha work hw => .inl ⟨a', work.2, ha, hw, .inl rfl⟩
  have hnone : ∀ {v : World} {o : String} {a' : Attempt}, a'.indexWork = none →
      WorkBefore settings w v o a' := by
    intro v o a' ha work hw
    rw [ha] at hw
    cases hw
  cases hm with
  | started _ => exact World.forall_setAttempt (hsame _) (hnone rfl)
  | halted _ _ _ => exact World.forall_setAttempt (hsame _) (hnone rfl)
  | claimedProcess _ _ _ _ => exact World.forall_setAttempt (hsame _) (hnone rfl)
  | claimedChunks _ _ _ _ _ _ _ _ => exact World.forall_setAttempt (hsame _) (hnone rfl)
  | claimedIndex _ hc _ _ hchunks _ =>
    refine World.forall_setAttempt (hsame _) ?_
    intro work hwork
    obtain rfl := Option.some.inj (Option.mem_def.mp hwork)
    exact .inr ⟨hc.free, rfl, rfl, hchunks, rfl⟩
  | processAcquired _ _ => exact World.forall_setAttempt (hsame _) (hnone rfl)
  | indexAcquired ha _ =>
    exact World.forall_setAttempt (hsame _) (fun work hw => .inl ⟨_, work.2, ha, hw, .inl rfl⟩)
  | processOwned _ _ _ => exact World.forall_setAttempt (hsame _) (hnone rfl)
  | indexOwned ha _ _ =>
    exact World.forall_setAttempt (hsame _) (fun work hw => .inl ⟨_, work.2, ha, hw, .inl rfl⟩)
  | filesMoved _ _ hf =>
    exact World.forall_setAttempt (hsame _) (hnone (by cases hf <;> rfl))
  | stagingCleared _ _ => exact World.forall_setAttempt (hsame _) (hnone rfl)
  | processCompleted _ _ => exact World.forall_setAttempt (hsame _) (hnone rfl)
  | chunksBuilt _ _ => exact World.forall_setAttempt (hsame _) (hnone rfl)
  | chunksCompleted _ _ => exact World.forall_setAttempt (hsame _) (hnone rfl)
  | @upserted o context rest ha =>
    refine World.forall_setAttempt (hsame _) ?_
    intro work hwork
    obtain rfl := Option.some.inj (Option.mem_def.mp hwork)
    exact .inl ⟨_, rest, ha, rfl, .inr ⟨rfl, rfl, rfl⟩⟩
  | indexCompleted _ _ _ _ _ => exact World.forall_setAttempt (hsame _) (hnone rfl)
  | _ => exact hsame _

/-- A snapshot stays what it was, or is taken in this step. -/
def SnapshotBefore (w w' : World) (i : Nat) (c' : Compensation) : Prop :=
  ∀ snapshot ∈ c'.phase.snapshot,
    (∃ c, w.compensations i = some c ∧ c.operationId = c'.operationId ∧
      snapshot ∈ c.phase.snapshot) ∨
    w.owner = some c'.operationId ∧ w'.status = .failed ∧
      snapshot.chunkIds = (w.rows.listIndexable [.indexing]).map (·.id)

theorem Moved.snapshots (hm : Moved settings w act w') :
    ∀ i c', w'.compensations i = some c' → SnapshotBefore w w' i c' := by
  have hsame : ∀ v : World, ∀ i c', w.compensations i = some c' → SnapshotBefore w v i c' :=
    fun v i c' hc snapshot hs => .inl ⟨c', hc, rfl, hs⟩
  have hnone : ∀ {v : World} {i : Nat} {c' : Compensation}, c'.phase.snapshot = none →
      SnapshotBefore w v i c' := by
    intro v i c' hc snapshot hs
    rw [hc] at hs
    cases hs
  cases hm with
  | @compensationStarted i o a _ _ =>
    refine World.forall_setCompensation (hsame _) (hnone ?_)
    show a.stage.compensator.snapshot = none
    cases a.stage <;> rfl
  | processFailed _ _ _ => exact World.forall_setCompensation (hsame _) (hnone rfl)
  | processNotFailed _ _ => exact World.forall_setCompensation (hsame _) (hnone rfl)
  | chunksFailed _ _ _ => exact World.forall_setCompensation (hsame _) (hnone rfl)
  | indexPrepared _ ho _ hids =>
    refine World.forall_setCompensation (hsame _) ?_
    intro snapshot hs
    obtain rfl := Option.some.inj (Option.mem_def.mp hs)
    exact .inr ⟨ho, rfl, hids⟩
  | compensationProcessFenced _ _ => exact World.forall_setCompensation (hsame _) (hnone rfl)
  | compensationIndexFenced hc _ =>
    exact World.forall_setCompensation (hsame _) (fun snapshot hs => .inl ⟨_, hc, rfl, hs⟩)
  | ownerChecked _ _ _ _ => exact World.forall_setCompensation (hsame _) (hnone rfl)
  | dirCleared _ => exact World.forall_setCompensation (hsame _) (hnone rfl)
  | released _ _ => exact World.forall_setCompensation (hsame _) (hnone rfl)
  | pointsDeleted hc =>
    exact World.forall_setCompensation (hsame _) (fun snapshot hs => .inl ⟨_, hc, rfl, hs⟩)
  | indexFailed _ _ _ => exact World.forall_setCompensation (hsame _) (hnone rfl)
  | ended _ _ => exact World.forall_setCompensation (hsame _) (hnone rfl)
  | _ => exact hsame _

/-- The ids are those of the chunks that are being indexed. -/
def World.IndexingIds (w : World) (ids : List Nat) : Prop :=
  ∀ c ∈ w.rows.childChunks, c.vectorStatus = .indexing ↔ c.id ∈ ids

/-- The data of the indexing stage agrees with the rows, for the operation that owns them. -/
structure IndexWork (w : World) : Prop where
  work : ∀ o a work, w.attempts o = some a → work ∈ a.indexWork → w.owner = some o →
    (∀ x ∈ work.2, x ∈ work.1.chunks) ∧ w.IndexingIds work.1.chunkIds ∧
      ∀ id ∈ work.1.chunkIds, ∃ c ∈ w.rows.childChunks, c.id = id
  snapshot : ∀ i c snapshot, w.compensations i = some c → snapshot ∈ c.phase.snapshot →
    (∃ a, w.attempts c.operationId = some a ∧ a.Claimed) ∧
      (w.owner = some c.operationId → w.status = .failed ∧ w.IndexingIds snapshot.chunkIds)

theorem Uploaded.indexWork (h : Uploaded w) : IndexWork w := by
  refine ⟨?_, ?_⟩
  · intro o a work ha
    rw [h.attempts] at ha
    cases ha
  · intro i c snapshot hc
    rw [h.compensations] at hc
    cases hc

/-- **While an operation keeps the document, the chunk rows stay as they are.** -/
theorem ChunksMoved.rows_kept (hcm : ChunksMoved w w') {o : String} (ho : w.owner = some o)
    (ho' : w'.owner = some o) : w'.rows.childChunks = w.rows.childChunks := by
  cases hcm with
  | kept h _ _ => exact h
  | claimed hfree _ _ _ _ _ _ _ _ =>
    rw [ho] at hfree
    cases hfree
  | rebuilt _ _ _ hfree _ _ =>
    rw [ho'] at hfree
    cases hfree
  | indexed _ _ _ hfree _ _ _ =>
    rw [ho'] at hfree
    cases hfree
  | compensated _ _ hfree _ _ =>
    rw [ho'] at hfree
    cases hfree

theorem World.IndexingIds.kept {ids : List Nat} (h : w.IndexingIds ids)
    (hrows : w'.rows.childChunks = w.rows.childChunks) : w'.IndexingIds ids := by
  intro c hc
  rw [hrows] at hc
  exact h c hc

/-- The claim of the indexing stage marks the chunks it takes along. -/
theorem ChunkRows.indexingIds_claimed (hc : ChunkRows w) (hfree : w.owner = none)
    {context : IndexingContext}
    (hcontext : context.chunks = (w.rows.listIndexable indexableVectorStatuses).map toChunkInput)
    (hrows : w'.rows.childChunks =
      (w.rows.markIndexing (w.rows.listIndexable indexableVectorStatuses)).childChunks) :
    w'.IndexingIds context.chunkIds ∧
      ∀ id ∈ context.chunkIds, ∃ c ∈ w'.rows.childChunks, c.id = id := by
  have hids : context.chunkIds =
      (w.rows.listIndexable indexableVectorStatuses).map (·.id) := by
    unfold IndexingContext.chunkIds
    rw [hcontext, List.map_map]
    rfl
  refine ⟨?_, ?_⟩
  · intro c' hc'
    rw [hrows, mem_markIndexing hc.keys] at hc'
    obtain ⟨c, hmem, rfl⟩ := hc'
    rw [hids]
    split_ifs with hcond
    · refine iff_of_true rfl ?_
      exact List.mem_map.mpr ⟨c, DocumentRows.mem_listIndexable.mpr ⟨hmem, hcond⟩, rfl⟩
    · refine iff_of_false ?_ ?_
      · intro hi
        exact not_ownedBy_of_free hfree (hc.indexing c hmem hi)
      · intro hid
        obtain ⟨d, hd, hdc⟩ := List.mem_map.mp hid
        obtain ⟨hd, hdcond⟩ := DocumentRows.mem_listIndexable.mp hd
        obtain rfl := List.inj_on_of_nodup_map hc.keys hd hmem hdc
        exact hcond hdcond
  · intro id hid
    rw [hids] at hid
    obtain ⟨c, hmem, rfl⟩ := List.mem_map.mp hid
    obtain ⟨hmem, hcond⟩ := DocumentRows.mem_listIndexable.mp hmem
    refine ⟨{ c with vectorStatus := .indexing }, ?_, rfl⟩
    rw [hrows, mem_markIndexing hc.keys]
    exact ⟨c, hmem, by rw [if_pos hcond]⟩

theorem ChunkRows.indexingIds_listed (hc : ChunkRows w) :
    w.IndexingIds ((w.rows.listIndexable [.indexing]).map (·.id)) := by
  intro c hmem
  constructor
  · intro hi
    refine List.mem_map.mpr ⟨c, DocumentRows.mem_listIndexable.mpr ⟨hmem, ?_, ?_⟩, rfl⟩
    · exact (hc.rows c hmem).1
    · rw [hi]
      exact List.mem_singleton.mpr rfl
  · intro hid
    obtain ⟨d, hd, hdc⟩ := List.mem_map.mp hid
    obtain ⟨hd, -, hs⟩ := DocumentRows.mem_listIndexable.mp hd
    obtain rfl := List.inj_on_of_nodup_map hc.keys hd hmem hdc
    exact List.mem_singleton.mp hs

theorem Attempt.claimed_of_indexWork {a : Attempt}
    {work : IndexingContext × List IndexingChunkInput} (h : work ∈ a.indexWork) : a.Claimed := by
  cases a <;> trivial

theorem IndexWork.work_moved (hi : IndexWork w) (hc : ChunkRows w) (hm : Moved settings w act w')
    (hcm : ChunksMoved w w') {o : String} {a' : Attempt}
    {work : IndexingContext × List IndexingChunkInput} (ha' : w'.attempts o = some a')
    (hwork : work ∈ a'.indexWork) (ho' : w'.owner = some o) :
    (∀ x ∈ work.2, x ∈ work.1.chunks) ∧ w'.IndexingIds work.1.chunkIds ∧
      ∀ id ∈ work.1.chunkIds, ∃ c ∈ w'.rows.childChunks, c.id = id := by
  rcases hm.indexWork o a' ha' work hwork with ⟨a, rest, ha, hold, hrest⟩ | ⟨hfree, -, hall,
    hcontext, hrows⟩
  · have ho := hm.owner_before ha (Attempt.claimed_of_indexWork hold) ho'
    have hrows := hcm.rows_kept ho ho'
    obtain ⟨hsub, hids, hex⟩ := hi.work o a _ ha hold ho
    refine ⟨?_, hids.kept hrows, ?_⟩
    · rcases hrest with hrest | ⟨-, hrest, -⟩
      · rw [hrest]
        exact hsub
      · rw [hrest]
        exact fun x hx => hsub x (List.mem_of_mem_drop hx)
    · rw [hrows]
      exact hex
  · rw [hall]
    exact ⟨fun x hx => hx, hc.indexingIds_claimed hfree hcontext hrows⟩

theorem IndexWork.snapshot_moved (hi : IndexWork w) (hc : ChunkRows w) (hr : Roles w)
    (hm : Moved settings w act w') (hcm : ChunksMoved w w') {i : Nat} {c' : Compensation}
    {snapshot : IndexingCompensationSnapshot} (hc' : w'.compensations i = some c')
    (hs : snapshot ∈ c'.phase.snapshot) :
    (∃ a, w'.attempts c'.operationId = some a ∧ a.Claimed) ∧
      (w'.owner = some c'.operationId →
        w'.status = .failed ∧ w'.IndexingIds snapshot.chunkIds) := by
  have hclaimed : ∀ {a}, w.attempts c'.operationId = some a → a.Claimed →
      ∃ a', w'.attempts c'.operationId = some a' ∧ a'.Claimed := by
    intro a ha hca
    obtain ⟨a', ha', hp⟩ := hm.progress _ a ha
    exact ⟨a', ha', hp.claimed hca⟩
  rcases hm.snapshots i c' hc' snapshot hs with ⟨c, hold, hop, hsnap⟩ | ⟨ho, hstatus, hids⟩
  · obtain ⟨⟨a, ha, hca⟩, hagree⟩ := hi.snapshot i c snapshot hold hsnap
    rw [hop] at ha hagree
    refine ⟨hclaimed ha hca, fun ho' => ?_⟩
    have ho := hm.owner_before ha hca ho'
    obtain ⟨hfailed, hids⟩ := hagree ho
    exact ⟨hm.failed_after ho ho' hfailed, hids.kept (hcm.rows_kept ho ho')⟩
  · obtain ⟨a, ha, hu, -⟩ := hr.owner _ ho
    refine ⟨hclaimed ha hu.claimed, fun ho' => ⟨hstatus, ?_⟩⟩
    rw [hids]
    exact hc.indexingIds_listed.kept (hcm.rows_kept ho ho')

theorem IndexWork.moved (hi : IndexWork w) (hc : ChunkRows w) (hr : Roles w)
    (hm : Moved settings w act w') : IndexWork w' where
  work _ _ _ ha' hwork ho' := hi.work_moved hc hm (hm.chunks hr) ha' hwork ho'
  snapshot _ _ _ hc' hs := hi.snapshot_moved hc hr hm (hm.chunks hr) hc' hs

theorem ChunkRows.moved (hc : ChunkRows w) (hi : IndexWork w) (hr : Roles w)
    (hm : Moved settings w act w') : ChunkRows w' where
  keys := hc.keys_moved (hm.chunks hr)
  rows _ hc' := hc.rows_moved hm hr hc'
  contexts := hc.contexts.moved hm
  indexing _ hc' hs := by
    refine hc.indexing_moved (hm.chunks hr) ?_ hc' hs
    intro i o snapshot hphase ho c hmem hind
    exact (((hi.snapshot i _ snapshot hphase rfl).2 ho).2 c hmem).mp hind
  indexed _ hc' hs := hc.indexed_moved hm (hm.chunks hr) hc' hs
  searchable hs := hc.searchable_moved hm (hm.chunks hr) hs
  claimed ho := hc.claimed_moved (hm.chunks hr) ho

end Step

/-- What holds of the document and its chunk rows in every state reached. -/
structure ChunkState (w : World) : Prop where
  roles : Roles w
  rows : ChunkRows w
  work : IndexWork w

theorem reachable_chunks {settings : Settings} {w : World}
    (hw : (pipeline settings).Reachable w) : ChunkState w := by
  refine Machine.ReachableVia.invariant (P := ChunkState) ?_ ?_ hw
  · intro w h
    exact ⟨Uploaded.roles h, Uploaded.chunkRows h, Uploaded.indexWork h⟩
  · intro w act w' _ h _ hs
    have hm : Moved settings w act w' := step_moved h.roles.keyed hs
    exact ⟨h.roles.moved hm, h.rows.moved h.work h.roles hm, h.work.moved h.rows h.roles hm⟩

end DocFlow.Pipeline
