import DocFlow.Document.Chunks
import DocFlow.Document.Files

/-!
# Chunks of the current artifact

Outside the statuses `processed` and `chunking` the chunks are those of the active cleaned artifact.
A document is processed again with its chunks in place, so a compensation of the chunk stage that
leaves `chunking` for `failed` keeps the rule only where there are no chunks: from `failed` the index
stage may be claimed.
-/

namespace DocFlow.Pipeline

/-- The step gives the document back as failed, for an operation of the chunk stage. -/
def World.failsChunking (w : World) : Action → Bool
  | .fail i =>
    match w.compensations i with
    | some ⟨operationId, .failChunking⟩ => w.owner = some operationId ∧ w.status = .chunking
    | _ => false
  | _ => false

/-- A compensation of the chunk stage fails a document without chunks. -/
def FailsEmpty (w : World) (act : Action) : Prop :=
  w.failsChunking act = true → w.rows.existsByDocId = false

instance (w : World) (act : Action) : Decidable (FailsEmpty w act) :=
  inferInstanceAs (Decidable (w.failsChunking act = true → w.rows.existsByDocId = false))

/-- Neither between the processing and the chunk stage, nor in the latter. -/
def World.Settled (w : World) : Prop := w.status ≠ .processed ∧ w.status ≠ .chunking

structure Fresh (w : World) : Prop where
  /-- the document names the file of the latest processing, which is the active artifact's -/
  source : w.rows.document.cleanedUri =
    (w.rows.getLatestActive .cleanedText .processOutput).map (·.artifactUri)
  contexts : ∀ o a context, w.attempts o = some a → context ∈ a.chunkContext →
    w.owner = some o → w.rows.document.cleanedUri = some context.cleanedPath
  chunks : w.Settled → ∀ c ∈ w.rows.childChunks, w.rows.document.cleanedUri = some c.builtFrom

section Step

variable {settings : Settings} {w w' : World} {act : Action}

theorem Uploaded.fresh (h : Uploaded w) : Fresh w := by
  refine ⟨?_, ?_, ?_⟩
  · rw [h.cleanedUri, DocumentRows.getLatestActive, h.artifacts]
    rfl
  · intro o a context ha
    rw [h.attempts] at ha
    cases ha
  · intro _ c hc
    rw [h.childChunks] at hc
    cases hc

theorem Moved.cleanedUri (hm : Moved settings w act w') :
    w'.rows.document.cleanedUri = w.rows.document.cleanedUri ∨
      w'.status = .processed ∧ w'.owner = none := by
  cases hm with
  | processCompleted _ _ => exact .inr ⟨rfl, rfl⟩
  | _ => exact .inl rfl

theorem Fresh.source_moved (h : Fresh w) (hF : FileState settings w)
    (hm : Moved settings w act w') :
    w'.rows.document.cleanedUri =
      (w'.rows.getLatestActive .cleanedText .processOutput).map (·.artifactUri) := by
  cases hm with
  | @processCompleted o result ha _ =>
    obtain ⟨⟨hcleaned, -, -⟩, -⟩ := hF.made o _ ha
    have hlatest : (processedRows w.rows result).getLatestActive .cleanedText .processOutput =
        some result.cleanedArtifact.row := by
      rw [← hcleaned.type, ← hcleaned.role]
      exact getLatestActive_persistArtifact
    show some result.cleanedPath = ((processedRows w.rows result).getLatestActive .cleanedText
      .processOutput).map (·.artifactUri)
    rw [hlatest, ← hcleaned.uri]
    rfl
  | _ => exact h.source

/-- The chunk stage reads the file of the latest processing. -/
theorem Fresh.cleanedSource (h : Fresh w) :
    w.rows.cleanedSource = w.rows.document.cleanedUri := by
  rw [DocumentRows.cleanedSource, h.source]
  cases w.rows.getLatestActive .cleanedText .processOutput <;> rfl

theorem Fresh.contexts_moved (h : Fresh w) (hm : Moved settings w act w') {o : String}
    {a' : Attempt} {context : ChunkingContext} (ha' : w'.attempts o = some a')
    (hcontext : context ∈ a'.chunkContext) (ho' : w'.owner = some o) :
    w'.rows.document.cleanedUri = some context.cleanedPath := by
  have hkept : w'.rows.document.cleanedUri = w.rows.document.cleanedUri := by
    rcases hm.cleanedUri with hsame | ⟨-, hnone⟩
    · exact hsame
    · cases ho'.symm.trans hnone
  rw [hkept]
  rcases hm.contexts o a' ha' context hcontext with ⟨a, ha, hold⟩ | ⟨-, -, hsource, -, -⟩
  · have hclaimed : a.Claimed := by
      cases a <;> trivial
    exact h.contexts o a context ha hold (hm.owner_before ha hclaimed ho')
  · exact h.cleanedSource.symm.trans hsource

/-- A step into a settled state comes from one, builds the chunks anew, or fails the chunk stage. -/
theorem Moved.settled_before (hm : Moved settings w act w') (hs' : w'.Settled) :
    w.Settled ∨ w.failsChunking act = true ∨
      ∃ o context chunks, w.attempts o = some (.chunksBuilt context chunks) ∧ w.owner = some o ∧
        w'.rows.childChunks = createChildren context chunks
          (createParents context chunks w.rows.nextParentId) w.rows.nextChunkId := by
  have hworking : ∀ {s : DocumentStatus}, w.status = s → s ≠ .processed → s ≠ .chunking →
      w.Settled := by
    intro s hs h₁ h₂
    rw [World.Settled, hs]
    exact ⟨h₁, h₂⟩
  have hclaimable : ∀ {stage : Stage}, Claimable stage w.rows.document → stage ≠ .buildChunks →
      w.Settled := by
    intro stage hc hne
    have hstatus := hc.status
    refine ⟨?_, ?_⟩
    · intro hs
      rw [show w.rows.document.status = .processed from hs] at hstatus
      revert hstatus hne
      cases stage <;> decide
    · intro hs
      rw [show w.rows.document.status = .chunking from hs] at hstatus
      revert hstatus hne
      cases stage <;> decide
  cases hm with
  | claimedProcess _ hc _ _ => exact .inl (hclaimable hc (by decide))
  | claimedChunks _ _ _ _ _ _ _ _ => exact absurd rfl hs'.2
  | claimedIndex _ hc _ _ _ _ => exact .inl (hclaimable hc (by decide))
  | processCompleted _ _ => exact absurd rfl hs'.1
  | @chunksCompleted o context chunks ha hw =>
    exact .inr (.inr ⟨o, context, chunks, ha, hw.owner, rfl⟩)
  | indexCompleted _ hw _ _ _ => exact .inl (hworking hw.status (by decide) (by decide))
  | processFailed _ _ hs => exact .inl (hworking hs (by decide) (by decide))
  | chunksFailed hi ho hs =>
    refine .inr (.inl ?_)
    have hfails : w.owner = some _ ∧ w.status = .chunking := ⟨ho, hs⟩
    simp [World.failsChunking, hi, hfails]
  | indexPrepared _ _ hs _ =>
    rcases hs with hs | hs
    · exact .inl (hworking hs (by decide) (by decide))
    · exact .inl (hworking hs (by decide) (by decide))
  | indexFailed _ _ hs => exact .inl (hworking hs (by decide) (by decide))
  | _ => exact .inl hs'

theorem Fresh.chunks_moved (h : Fresh w) (hc : ChunkState w) (hm : Moved settings w act w')
    (hok : FailsEmpty w act) (hs' : w'.Settled) {c' : ChildChunk} (hc' : c' ∈ w'.rows.childChunks) :
    w'.rows.document.cleanedUri = some c'.builtFrom := by
  have hkept : w'.rows.document.cleanedUri = w.rows.document.cleanedUri := by
    rcases hm.cleanedUri with hsame | ⟨hprocessed, -⟩
    · exact hsame
    · exact absurd hprocessed hs'.1
  rw [hkept]
  rcases hc.rows.row_before (hm.chunks hc.roles) hc' with ⟨c, hmem, he⟩ | ⟨o, context, chunks, id,
    parentId, child, hwork, ho, -, rfl⟩
  · have hbuilt : c'.builtFrom = c.builtFrom := by rw [he]
    rcases hm.settled_before hs' with hs | hfails | ⟨o, context, chunks, hwork, ho, hrows⟩
    · rw [hbuilt]
      exact h.chunks hs c hmem
    · -- there is no chunk
      have hex : w.rows.existsByDocId = true :=
        DocumentRows.existsByDocId_eq_true.mpr ⟨c, hmem, (hc.rows.rows c hmem).1⟩
      cases (hok hfails).symm.trans hex
    · rw [hrows] at hc'
      obtain ⟨id, parentId, child, rfl⟩ := of_mem_createChildren hc'
      exact h.contexts o _ context hwork rfl ho
  · exact h.contexts o _ context hwork rfl ho

theorem Fresh.moved (h : Fresh w) (hF : FileState settings w) (hc : ChunkState w)
    (hm : Moved settings w act w') (hok : FailsEmpty w act) : Fresh w' where
  source := h.source_moved hF hm
  contexts _ _ _ ha' hcontext ho' := h.contexts_moved hm ha' hcontext ho'
  chunks hs' _ hc' := h.chunks_moved hc hm hok hs' hc'

end Step

section Runs

variable {settings : Settings} {w : World}

theorem reachable_fresh (hw : (pipeline settings).ReachableVia FailsEmpty w) : Fresh w := by
  refine Machine.ReachableVia.invariant (P := Fresh) ?_ ?_ hw
  · intro w h
    exact Uploaded.fresh h
  · intro w act w' hr h hok hs
    have hr := hr.reachable
    exact h.moved (reachable_files hr) (reachable_chunks hr) (reachable_moved hr hs) hok

/-- **Indexed content is current**, where the chunk stage fails without chunks only.  The chunks are
cut from the file of the active cleaned artifact, the one the latest processing has left. -/
theorem indexed_content_current (settings : Settings) (w : World)
    (hw : (pipeline settings).ReachableVia FailsEmpty w) (hs : w.status = .indexed) :
    ∀ c ∈ w.rows.childChunks, ∃ artifact,
      w.rows.getLatestActive .cleanedText .processOutput = some artifact ∧
        c.builtFrom = artifact.artifactUri ∧ w.rows.document.cleanedUri = some c.builtFrom := by
  have hfresh := reachable_fresh hw
  have hsettled : w.Settled := by
    rw [World.Settled, hs]
    decide
  intro c hc
  have huri := hfresh.chunks hsettled c hc
  rw [hfresh.source] at huri
  obtain ⟨artifact, hartifact, hpath⟩ := Option.map_eq_some_iff.mp huri
  exact ⟨artifact, hartifact, hpath.symm, hfresh.chunks hsettled c hc⟩

/-! ### A chunk stage that fails after a second processing -/

/-- The document is processed and cut, and its index stage fails. -/
def failedIndexing : List Action :=
  processAll "p" ++ chunkAll "c" ++ [.start "i" .indexVectors, .claim "i", .stop "i"] ++
    compensateIndex 0 "i"

/-- It is processed again, and the chunk stage fails. -/
def failedChunking : List Action :=
  processAll "q" ++ [.start "d" .buildChunks, .claim "d", .stop "d", .compensate 1 "d", .fail 1]

/-- The index stage takes up the failed document with the chunks of the first processing. -/
theorem stale_chunks_indexed :
    ¬ ∀ (settings : Settings) (w : World), (pipeline settings).Reachable w → w.status = .indexed →
      ∀ c ∈ w.rows.childChunks, ∃ artifact,
        w.rows.getLatestActive .cleanedText .processOutput = some artifact ∧
          c.builtFrom = artifact.artifactUri ∧ w.rows.document.cleanedUri = some c.builtFrom := by
  intro h
  obtain ⟨artifact, -, -, huri⟩ := h plainSettings
    (uploadedText.afterAll (failedIndexing ++ failedChunking ++ indexAll "j"))
    (World.reachable_afterAll (.init uploadedText_uploaded) _) rfl _ (.head _)
  revert huri
  decide

/-- The document is processed again, cut and indexed. -/
def indexedAgain : World :=
  (uploadedText.afterAll failedIndexing).afterAll (processAll "q" ++ chunkAll "d" ++ indexAll "j")

/-- Where the chunk stage succeeds, the chunks are those of the second processing. -/
theorem indexed_content_current_again :
    ∃ c ∈ indexedAgain.rows.childChunks, c.builtFrom = ⟨"cleaned", "q", "D.cleaned.txt"⟩ ∧
      ∃ artifact, indexedAgain.rows.getLatestActive .cleanedText .processOutput = some artifact ∧
        c.builtFrom = artifact.artifactUri := by
  have hfailed : (pipeline plainSettings).RunVia FailsEmpty uploadedText failedIndexing
      (uploadedText.afterAll failedIndexing) := .of_runWhile rfl
  have hindexed : (pipeline plainSettings).RunVia FailsEmpty (uploadedText.afterAll failedIndexing)
      (processAll "q" ++ chunkAll "d" ++ indexAll "j") indexedAgain := .of_runWhile rfl
  obtain ⟨artifact, hartifact, hbuilt, -⟩ := indexed_content_current plainSettings indexedAgain
    (hindexed.reachableVia (hfailed.reachableVia (.init uploadedText_uploaded))) rfl _ (.head _)
  exact ⟨_, .head _, rfl, artifact, hartifact, hbuilt⟩

end Runs

end DocFlow.Pipeline
