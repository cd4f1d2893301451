import DocFlow.Document.Stages
import Mathlib.Algebra.GroupWithZero.Nat

/-!
# Cutting a document into chunks

The transactions of `build_chunks.py`.  The chunker is code of many formats; here its answer
(`ChunkBuildResult`) is an argument, and `validateChunkBuildResult` is what the use case asks of it.
-/

namespace DocFlow.Pipeline

structure ChunkingContext where
  documentId : Nat
  docCode : String
  sourceType : String
  cleanedPath : FilePath
  chunkSourceType : String
  documentTitle : String
  kbId : Nat
  domainCode : String
  businessScene : Option String
  version : Nat
  processMetadata : Metadata
  statusBefore : DocumentStatus
  operationId : String
deriving DecidableEq, Repr

structure ParentBlockData where
  content : String
  blockIndex : Int
deriving DecidableEq, Repr

structure ChildChunkData where
  embeddingText : String
  chunkIndex : Int
  sectionPath : Option (List String)
  sourceRowIndex : Option Int
deriving DecidableEq, Repr

/-- `children_by_parent_index` is a `dict`: its keys are different. -/
structure ChunkBuildResult where
  parents : List ParentBlockData
  childrenByParentIndex : List (Int × List ChildChunkData)
  nodup : (childrenByParentIndex.map Prod.fst).Nodup
deriving DecidableEq

/-- `children_by_parent_index.get(i, [])`. -/
def ChunkBuildResult.children (chunks : ChunkBuildResult) (parentIndex : Int) :
    List ChildChunkData :=
  (chunks.childrenByParentIndex.lookup parentIndex).getD []

structure BuildChunksResult where
  documentId : Nat
  docCode : String
  sourceType : String
  parentCount : Nat
  childCount : Nat
  status : String
deriving DecidableEq, Repr

/-! ## Claiming -/

/-- The file to cut, its type and its metadata: those of the active cleaned artifact, else, for old
rows, what the document itself says. -/
def cleanedInput (rows : DocumentRows) : Except StageError (FilePath × String × Metadata) :=
  match rows.getLatestActive .cleanedText .processOutput with
  | some artifact => .ok (artifact.artifactUri, artifact.artifactFormat, artifact.metadataJson)
  | none =>
    match rows.document.cleanedUri with
    | none => .error (.application ⟨400, "文档尚未处理"⟩)
    | some uri => .ok (uri, getExpectedProcessOutputType rows.document.sourceType, [])

def claimChunking (operationId : String) (rows : DocumentRows) :
    Except StageError (ChunkingContext × DocumentRows) := do
  let document := rows.document
  checkClaim .buildChunks document
  -- a failed document that has chunks is to be retried by the indexing stage
  if document.status = .failed ∧ rows.existsByDocId = true then
    throw (.application ⟨409, "文档已有切块结果，不能通过切块接口重试"⟩)
  let (cleanedPath, chunkSourceType, processMetadata) ← cleanedInput rows
  let context : ChunkingContext :=
    { documentId := document.id
      docCode := document.docCode
      sourceType := document.sourceType
      cleanedPath := cleanedPath
      chunkSourceType := chunkSourceType
      documentTitle := document.title
      kbId := document.kbId
      domainCode := document.domainCode
      businessScene := document.businessScene
      version := document.version
      processMetadata := processMetadata
      statusBefore := document.status
      operationId := operationId }
  return (context,
    { rows with
      document := { document with status := .chunking, activeOperationId := some operationId } })

/-! ## Execution -/

/-- What `_validate_chunk_build_result` asks of the children of one parent block. -/
def validateChildren (children : List ChildChunkData) : Except StageError Unit :=
  if ¬ (children.map (·.chunkIndex)).Nodup then
    .error (.application ⟨500, "切块结果包含重复的 chunk_index"⟩)
  else if ∃ child ∈ children, PyString.isBlank child.embeddingText = true then
    .error (.application ⟨500, "切块结果包含空的 embedding_text"⟩)
  else .ok ()

/-- `_validate_chunk_build_result`. -/
def validateChunkBuildResult (chunks : ChunkBuildResult) : Except StageError Unit :=
  let parentIndices := chunks.parents.map (·.blockIndex)
  let lists := chunks.childrenByParentIndex.map Prod.snd
  if chunks.parents = [] then .error (.application ⟨400, "未生成任何 parent block"⟩)
  else if ¬ parentIndices.Nodup then
    .error (.application ⟨500, "切块结果包含重复的 parent block_index"⟩)
  else if (lists.map List.length).sum = 0 then
    .error (.application ⟨400, "未生成任何 child chunk"⟩)
  else if ¬ ∀ i ∈ chunks.childrenByParentIndex.map Prod.fst, i ∈ parentIndices then
    .error (.application ⟨500, "切块结果引用了不存在的 parent block"⟩)
  else lists.forM validateChildren

theorem validateChildren_eq_ok {children : List ChildChunkData}
    (hindices : (children.map (·.chunkIndex)).Nodup)
    (htexts : ∀ child ∈ children, PyString.isBlank child.embeddingText = false) :
    validateChildren children = .ok () := by
  have hblank : ¬ ∃ child ∈ children, PyString.isBlank child.embeddingText = true := by
    rintro ⟨child, hchild, hblank⟩
    rw [htexts child hchild] at hblank
    cases hblank
  rw [validateChildren, if_neg (not_not.mpr hindices), if_neg hblank]

theorem forM_validateChildren {lists : List (List ChildChunkData)}
    (h : ∀ children ∈ lists, validateChildren children = .ok ()) :
    lists.forM validateChildren = .ok () := by
  induction lists with
  | nil => rfl
  | cons children rest ih =>
    rw [List.forM_eq_forM, List.forM_cons, h children List.mem_cons_self]
    exact ih fun other hother => h other (List.mem_cons_of_mem _ hother)

/-- `_execute_chunking`: the cleaned file is read, and the chunker's answer checked. -/
def executeChunking (context : ChunkingContext) (files : List FilePath)
    (chunks : ChunkBuildResult) : Except StageError ChunkBuildResult :=
  if context.cleanedPath ∉ files then
    .error (.application ⟨404, "cleaned 文件不存在: " ++ context.cleanedPath.render⟩)
  else do
    validateChunkBuildResult chunks
    return chunks

/-! ## Completing -/

def buildParentBlock (context : ChunkingContext) (id : Nat) (parent : ParentBlockData) :
    ParentBlock :=
  { id := id
    docId := context.documentId
    kbId := context.kbId
    domainCode := context.domainCode
    businessScene := context.businessScene
    blockIndex := parent.blockIndex
    content := parent.content
    status := .active
    version := context.version }

def buildChildChunk (context : ChunkingContext) (id parentId : Nat) (child : ChildChunkData) :
    ChildChunk :=
  { id := id
    parentId := parentId
    docId := context.documentId
    kbId := context.kbId
    domainCode := context.domainCode
    businessScene := context.businessScene
    chunkIndex := child.chunkIndex
    sectionPath := child.sectionPath
    sourceRowIndex := child.sourceRowIndex
    embeddingText := child.embeddingText
    vectorStatus := .pending
    status := .active
    version := context.version
    builtFrom := context.cleanedPath }

/-- The parent blocks, under the next keys of their table. -/
def createParents (context : ChunkingContext) (chunks : ChunkBuildResult) (nextParentId : Nat) :
    List ParentBlock :=
  chunks.parents.zipIdx.map fun (parent, i) => buildParentBlock context (nextParentId + i) parent

/-- The children of the saved parents, under the next keys of their table. -/
def createChildren (context : ChunkingContext) (chunks : ChunkBuildResult)
    (parents : List ParentBlock) (nextChunkId : Nat) : List ChildChunk :=
  (parents.flatMap fun parent =>
    (chunks.children parent.blockIndex).map fun child => (parent.id, child)).zipIdx.map
      fun ((parentId, child), i) => buildChildChunk context (nextChunkId + i) parentId child

/-- `_complete_chunking`: the old rows go, the new ones come, in one transaction. -/
def completeChunking (context : ChunkingContext) (chunks : ChunkBuildResult)
    (rows : DocumentRows) : Except StageError (BuildChunksResult × DocumentRows) := do
  checkComplete .buildChunks rows.document context.operationId
  let parents := createParents context chunks rows.nextParentId
  let children := createChildren context chunks parents rows.nextChunkId
  let document := { rows.document with status := .chunked, activeOperationId := none }
  return (⟨document.id, document.docCode, document.sourceType, parents.length, children.length,
      "success"⟩,
    { rows with
      document := document
      parentBlocks := parents
      childChunks := children
      nextParentId := rows.nextParentId + parents.length
      nextChunkId := rows.nextChunkId + children.length })

/-! ## Compensating -/

/-- `_fail_chunking`. -/
def failChunking (operationId : String) (rows : DocumentRows) :
    FailureStateResult × DocumentRows :=
  let document := rows.document
  if document.status = .chunking ∧ document.activeOperationId = some operationId then
    (⟨true, some document.status, some .failed⟩,
      { rows with document := { document with status := .failed, activeOperationId := none } })
  else (⟨false, some document.status, some document.status⟩, rows)

end DocFlow.Pipeline
