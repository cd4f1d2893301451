import DocFlow.Domain
import DocFlow.Lib.PyString
import Mathlib.Data.List.Sort

/-!
# The rows of a document

A document row with its three status axes, and the rows that hang on it: artifacts, parent blocks
and child chunks.  `DocumentRows` is what a transaction on one document locks, reads and writes;
every query of the pipeline filters by the document's id, so the rows of other documents never
enter.  The document exists: no code deletes its row.

The columns that no transaction below reads (codes, hashes, sizes, counts, `indexed_at`,
`qdrant_point_id`) are left out.  `ChildChunk.builtFrom` is not a column; it records the file the
chunk was cut from.
-/

namespace DocFlow.Pipeline

/-! ## Status columns -/

inductive DocumentStatus
  | uploaded | processing | processed | chunking | chunked | indexing | indexed | failed
deriving DecidableEq, Repr

def DocumentStatus.value : DocumentStatus → String
  | .uploaded => "uploaded"
  | .processing => "processing"
  | .processed => "processed"
  | .chunking => "chunking"
  | .chunked => "chunked"
  | .indexing => "indexing"
  | .indexed => "indexed"
  | .failed => "failed"

inductive DocumentLifecycleStatus
  | scheduled | active | expired | replaced | deleted
deriving DecidableEq, Repr

def DocumentLifecycleStatus.value : DocumentLifecycleStatus → String
  | .scheduled => "scheduled"
  | .active => "active"
  | .expired => "expired"
  | .replaced => "replaced"
  | .deleted => "deleted"

inductive DocumentStorageStatus
  | active | archiving | archived | archiveFailed
deriving DecidableEq, Repr

inductive DocumentArtifactRole
  | processInput | processOutput | chunkInput | debugArtifact
deriving DecidableEq, Repr

inductive DocumentArtifactStatus
  | created | active | superseded | failed
deriving DecidableEq, Repr

inductive DocumentArtifactType
  | secondaryText | cleanedText | layoutJson | extractedTable | extractedImage
deriving DecidableEq, Repr

inductive VectorStatus
  | pending | indexing | indexed | failed
deriving DecidableEq, Repr

/-- The `status` column of blocks and chunks. -/
inductive RowStatus
  | active | inactive
deriving DecidableEq, Repr

/-! ## Source types -/

def localProcessSourceTypes : List String := ["txt", "md", "csv"]

def externalProcessSourceTypes : List String := ["pdf", "ppt", "pptx", "doc", "docx"]

/-- `s.lower()` of an extension, which is ASCII. -/
def lower (s : String) : String := String.ofList (s.toList.map Char.toLower)

/-- Lower case, stripped, without leading dots; `markdown` is another name of `md`. -/
def normalizeSourceType (sourceType : String) : String :=
  let stripped := PyString.strip (lower sourceType)
  let normalized := String.ofList (stripped.toList.dropWhile (· = '.'))
  if normalized = "markdown" then "md" else normalized

def requiresExternalProcessing (sourceType : String) : Bool :=
  externalProcessSourceTypes.contains (normalizeSourceType sourceType)

def getExpectedProcessOutputType (sourceType : String) : String :=
  if requiresExternalProcessing (normalizeSourceType sourceType) then "md"
  else normalizeSourceType sourceType

example : normalizeSourceType ".Markdown" = "md" := by decide

/-! ## Files -/

/-- A file in the directory of one operation below one of the storage roots. -/
structure FilePath where
  root : String
  operationId : String
  name : String
deriving DecidableEq, Repr

/-- `str(path)`. -/
def FilePath.render (path : FilePath) : String :=
  path.root ++ "/" ++ path.operationId ++ "/" ++ path.name

abbrev Metadata := List (String × String)

/-! ## Rows -/

structure Document where
  id : Nat
  docCode : String
  kbId : Nat
  domainCode : String
  businessScene : Option String
  title : String
  sourceType : String
  sourceUri : String
  cleanedUri : Option FilePath
  contentHash : String
  activeContentHash : Option String
  lifecycleStatus : DocumentLifecycleStatus
  storageStatus : DocumentStorageStatus
  version : Nat
  status : DocumentStatus
  activeOperationId : Option String
  replacedBy : Option Nat
  effectiveAt : Option Time
  expiredAt : Option Time
  createdByActorCode : Option String
  originalFilename : Option String
deriving DecidableEq, Repr

structure DocumentArtifact where
  artifactType : DocumentArtifactType
  artifactRole : DocumentArtifactRole
  artifactFormat : String
  artifactUri : FilePath
  status : DocumentArtifactStatus
  metadataJson : Metadata
deriving DecidableEq, Repr

structure ParentBlock where
  id : Nat
  docId : Nat
  kbId : Nat
  domainCode : String
  businessScene : Option String
  blockIndex : Int
  content : String
  status : RowStatus
  version : Nat
deriving DecidableEq, Repr

structure ChildChunk where
  id : Nat
  parentId : Nat
  docId : Nat
  kbId : Nat
  domainCode : String
  businessScene : Option String
  chunkIndex : Int
  sectionPath : Option (List String)
  sourceRowIndex : Option Int
  embeddingText : String
  vectorStatus : VectorStatus
  status : RowStatus
  version : Nat
  /-- The cleaned file the chunk was cut from. -/
  builtFrom : FilePath
deriving DecidableEq, Repr

/-- The rows of one document, and the next keys of the two tables that number their rows. -/
structure DocumentRows where
  document : Document
  artifacts : List DocumentArtifact
  parentBlocks : List ParentBlock
  childChunks : List ChildChunk
  nextParentId : Nat
  nextChunkId : Nat
deriving DecidableEq, Repr

/-! ## Queries and updates -/

namespace DocumentRows

variable (rows : DocumentRows)

/-- `document_artifacts.get_latest_active`; the artifacts stand in the order of their creation. -/
def getLatestActive (artifactType : DocumentArtifactType) (artifactRole : DocumentArtifactRole) :
    Option DocumentArtifact :=
  (rows.artifacts.filter fun a =>
    a.artifactType = artifactType ∧ a.status = .active ∧ a.artifactRole = artifactRole).getLast?

/-- `document_artifacts.mark_active_as_superseded`. -/
def markActiveAsSuperseded (artifactType : DocumentArtifactType)
    (artifactRole : DocumentArtifactRole) (artifactFormat : String) : DocumentRows :=
  { rows with
    artifacts := rows.artifacts.map fun a =>
      if a.artifactType = artifactType ∧ a.status = .active ∧ a.artifactRole = artifactRole ∧
          a.artifactFormat = artifactFormat then
        { a with status := .superseded }
      else a }

/-- `child_chunks.exists_by_doc_id`. -/
def existsByDocId : Bool := rows.childChunks.any fun c => c.status = .active

/-- `child_chunks.exists_by_doc_id_and_vector_status`. -/
def existsByVectorStatus (vectorStatus : VectorStatus) : Bool :=
  rows.childChunks.any fun c => c.status = .active ∧ c.vectorStatus = vectorStatus

/-- `child_chunks.list_indexable_by_doc_id`. -/
def listIndexable (statuses : List VectorStatus) : List ChildChunk :=
  (rows.childChunks.filter fun c => c.status = .active ∧ c.vectorStatus ∈ statuses).insertionSort
    fun c c' => c.parentId < c'.parentId ∨ c.parentId = c'.parentId ∧ c.chunkIndex ≤ c'.chunkIndex

/-- `child_chunks.list_by_ids_for_update`. -/
def listByIds (chunkIds : List Nat) : List ChildChunk :=
  rows.childChunks.filter fun c => c.id ∈ chunkIds

/-- `child_chunks.count_active_not_indexed_by_doc_id`. -/
def countActiveNotIndexed : Nat :=
  (rows.childChunks.filter fun c => c.status = .active ∧ c.vectorStatus ≠ .indexed).length

/-- Rewrite the chunks with the given ids. -/
def updateChunks (chunkIds : List Nat) (f : ChildChunk → ChildChunk) : DocumentRows :=
  { rows with
    childChunks := rows.childChunks.map fun c => if c.id ∈ chunkIds then f c else c }

/-- `child_chunks.mark_indexing`. -/
def markIndexing (chunks : List ChildChunk) : DocumentRows :=
  rows.updateChunks (chunks.map (·.id)) fun c => { c with vectorStatus := .indexing }

/-- `child_chunks.mark_indexed_many`. -/
def markIndexedMany (chunks : List ChildChunk) : DocumentRows :=
  rows.updateChunks (chunks.map (·.id)) fun c => { c with vectorStatus := .indexed }

/-- `child_chunks.mark_failed`: of the given chunks, those still being indexed. -/
def markFailed (chunks : List ChildChunk) : DocumentRows :=
  rows.updateChunks (chunks.map (·.id)) fun c =>
    if c.vectorStatus = .indexing then { c with vectorStatus := .failed } else c

variable {rows}

theorem existsByDocId_eq_true :
    rows.existsByDocId = true ↔ ∃ c ∈ rows.childChunks, c.status = .active := by
  simp [existsByDocId]

theorem existsByVectorStatus_eq_true {vectorStatus : VectorStatus} :
    rows.existsByVectorStatus vectorStatus = true ↔
      ∃ c ∈ rows.childChunks, c.status = .active ∧ c.vectorStatus = vectorStatus := by
  simp [existsByVectorStatus]

theorem mem_listIndexable {statuses : List VectorStatus} {c : ChildChunk} :
    c ∈ rows.listIndexable statuses ↔
      c ∈ rows.childChunks ∧ c.status = .active ∧ c.vectorStatus ∈ statuses := by
  simp [listIndexable]

theorem mem_listByIds {chunkIds : List Nat} {c : ChildChunk} :
    c ∈ rows.listByIds chunkIds ↔ c ∈ rows.childChunks ∧ c.id ∈ chunkIds := by
  simp [listByIds]

theorem countActiveNotIndexed_eq_zero :
    rows.countActiveNotIndexed = 0 ↔
      ∀ c ∈ rows.childChunks, c.status = .active → c.vectorStatus = .indexed := by
  simp [countActiveNotIndexed, List.filter_eq_nil_iff]

theorem mem_updateChunks {chunkIds : List Nat} {f : ChildChunk → ChildChunk} {c : ChildChunk} :
    c ∈ (rows.updateChunks chunkIds f).childChunks ↔
      ∃ c₀ ∈ rows.childChunks, (if c₀.id ∈ chunkIds then f c₀ else c₀) = c := by
  simp [updateChunks]

end DocumentRows

end DocFlow.Pipeline
