import DocFlow.Document.Stages

/-!
# Indexing the vectors of a document

The transactions of `index_vectors.py` and the vector store they write to.  A point is kept with
its payload; its vector, which nothing reads, is left out.
-/

namespace DocFlow.Pipeline

structure IndexingChunkInput where
  chunkId : Nat
  embeddingText : String
  parentId : Nat
  docId : Nat
  kbId : Nat
  domainCode : String
  businessScene : Option String
  chunkIndex : Int
  sectionPath : Option (List String)
  sourceRowIndex : Option Int
deriving DecidableEq, Repr

structure IndexingContext where
  documentId : Nat
  sourceType : String
  title : String
  originalFilename : Option String
  chunks : List IndexingChunkInput
  docCode : String
  kbId : Nat
  domainCode : String
  businessScene : Option String
  statusBefore : DocumentStatus
  pendingCount : Nat
  retryCount : Nat
  operationId : String
deriving DecidableEq, Repr

structure Point where
  id : Nat
  documentId : Nat
  kbId : Nat
  parentBlockId : Nat
  childChunkId : Nat
  chunkIndex : Int
  sectionPath : Option (List String)
  sourceRowIndex : Option Int
  domainCode : String
  businessScene : Option String
  sourceType : String
  title : String
  originalFilename : Option String
  operationId : String
deriving DecidableEq, Repr

structure IndexVectorsResult where
  documentId : Nat
  totalChunks : Nat
  indexedChunks : Nat
  failedChunks : Nat
  status : String
deriving DecidableEq, Repr

structure IndexFailureStateResult where
  documentStateUpdated : Bool
  chunkStateUpdatedCount : Nat
  statusBefore : Option DocumentStatus
  statusAfter : Option DocumentStatus
deriving DecidableEq, Repr

def noIndexFailureStateChange : IndexFailureStateResult := ⟨false, 0, none, none⟩

structure IndexingCompensationSnapshot where
  documentId : Nat
  chunkIds : List Nat
  statusBefore : DocumentStatus
deriving DecidableEq, Repr

/-! ## The vector store -/

section VectorStore

variable (points : List Point)

/-- A point replaces the one under its id. -/
def upsertPoints (new : List Point) : List Point :=
  points.filter (fun p => p.id ∉ new.map (·.id)) ++ new

def deletePoints (pointIds : List Nat) : List Point :=
  points.filter fun p => p.id ∉ pointIds

end VectorStore

/-! ## Claiming -/

def indexableVectorStatuses : List VectorStatus := [.pending, .failed]

/-- `_validate_indexing_chunk_ownership`. -/
def validateIndexingChunkOwnership (document : Document) (chunks : List ChildChunk) :
    Except StageError Unit :=
  if ∃ c ∈ chunks, c.docId ≠ document.id then .error (.runtime "索引子块与文档关联不一致")
  else if ∃ c ∈ chunks, c.kbId ≠ document.kbId then .error (.runtime "索引子块与文档知识库不一致")
  else if ∃ c ∈ chunks, c.domainCode ≠ document.domainCode then
    .error (.runtime "索引子块与文档领域编码不一致")
  else .ok ()

def toChunkInput (chunk : ChildChunk) : IndexingChunkInput :=
  { chunkId := chunk.id
    embeddingText := chunk.embeddingText
    parentId := chunk.parentId
    docId := chunk.docId
    kbId := chunk.kbId
    domainCode := chunk.domainCode
    businessScene := chunk.businessScene
    chunkIndex := chunk.chunkIndex
    sectionPath := chunk.sectionPath
    sourceRowIndex := chunk.sourceRowIndex }

def claimIndexing (operationId : String) (rows : DocumentRows) :
    Except StageError (IndexingContext × DocumentRows) := do
  let document := rows.document
  checkClaim .indexVectors document
  if rows.existsByVectorStatus .indexing = true then
    throw (.application ⟨409, "文档存在未完成的索引任务，请先执行恢复操作"⟩)
  let chunks := rows.listIndexable indexableVectorStatuses
  if chunks = [] then
    throw (.application ⟨409,
      if document.status = .failed then "文档没有可重试的向量块" else "文档没有可索引的子块"⟩)
  validateIndexingChunkOwnership document chunks
  let context : IndexingContext :=
    { documentId := document.id
      sourceType := document.sourceType
      title := document.title
      originalFilename := document.originalFilename
      chunks := chunks.map toChunkInput
      docCode := document.docCode
      kbId := document.kbId
      domainCode := document.domainCode
      businessScene := document.businessScene
      statusBefore := document.status
      pendingCount := chunks.countP (·.vectorStatus = .pending)
      retryCount := chunks.countP (·.vectorStatus = .failed)
      operationId := operationId }
  return (context,
    { rows.markIndexing chunks with
      document := { document with status := .indexing, activeOperationId := some operationId } })

/-! ## Execution -/

/-- `_assert_indexing_owned`, inside the fence. -/
def assertIndexingOwned (context : IndexingContext) (rows : DocumentRows) :
    Except StageError Unit :=
  if rows.document.status ≠ .indexing ∨
      rows.document.activeOperationId ≠ some context.operationId then
    .error (.aborted "当前索引 Operation ownership 已失效")
  else .ok ()

def buildPoint (context : IndexingContext) (chunk : IndexingChunkInput) : Point :=
  { id := chunk.chunkId
    documentId := chunk.docId
    kbId := chunk.kbId
    parentBlockId := chunk.parentId
    childChunkId := chunk.chunkId
    chunkIndex := chunk.chunkIndex
    sectionPath := chunk.sectionPath
    sourceRowIndex := chunk.sourceRowIndex
    domainCode := chunk.domainCode
    businessScene := chunk.businessScene
    sourceType := context.sourceType
    title := context.title
    originalFilename := context.originalFilename
    operationId := context.operationId }

/-! ## Completing -/

def IndexingContext.chunkIds (context : IndexingContext) : List Nat :=
  context.chunks.map (·.chunkId)

def completeIndexing (context : IndexingContext) (rows : DocumentRows) :
    Except StageError (IndexVectorsResult × DocumentRows) := do
  checkComplete .indexVectors rows.document context.operationId
  let chunks := rows.listByIds context.chunkIds
  if chunks.length ≠ context.chunkIds.length ∨ ∃ c ∈ chunks, c.vectorStatus ≠ .indexing then
    throw (.aborted "索引子块状态已经变化")
  let rows := rows.markIndexedMany chunks
  if 0 < rows.countActiveNotIndexed then throw (.aborted "文档仍存在未完成索引的子块")
  let document := { rows.document with status := .indexed, activeOperationId := none }
  return (⟨document.id, chunks.length, chunks.length, 0, "success"⟩,
    { rows with document := document })

/-! ## Compensating -/

/-- `IndexVectorsCompensator._prepare`. -/
def prepareCompensation (operationId : String) (rows : DocumentRows) :
    Option IndexingCompensationSnapshot × DocumentRows :=
  let document := rows.document
  if document.activeOperationId ≠ some operationId ∨
      document.status ∉ [DocumentStatus.indexing, .failed] then
    (none, rows)
  else
    let chunks := rows.listIndexable [.indexing]
    let snapshot : IndexingCompensationSnapshot :=
      ⟨document.id, chunks.map (·.id), document.status⟩
    (some snapshot,
      if document.status = .indexing then
        { rows with document := { document with status := .failed } }
      else rows)

/-- `IndexVectorsCompensator._complete`. -/
def completeCompensation (snapshot : IndexingCompensationSnapshot) (operationId : String)
    (rows : DocumentRows) : IndexFailureStateResult × DocumentRows :=
  let document := rows.document
  if document.activeOperationId ≠ some operationId ∨ document.status ≠ .failed then
    (noIndexFailureStateChange, rows)
  else
    let chunks := rows.listByIds snapshot.chunkIds
    (⟨snapshot.statusBefore ≠ document.status,
        chunks.countP (·.vectorStatus = .indexing), some snapshot.statusBefore,
        some document.status⟩,
      { rows.markFailed chunks with
        document := { document with activeOperationId := none } })

end DocFlow.Pipeline
