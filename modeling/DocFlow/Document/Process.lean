import DocFlow.Document.Stages

/-!
# Processing a document

The transactions and the file operations of `process_document.py`.  The files in the storage
directories are a list of paths; a directory is the files below it.  What an external converter
answers, and the random part of a code, is an argument (`Conversion`).  `_execute_processing` is cut
in two, after the source is prepared, because each part writes a file.
-/

namespace DocFlow.Pipeline

structure ProcessingSettings where
  cleanedStorageDir : String
  secondaryTextStorageDir : String
  stagingStorageDir : String
deriving DecidableEq, Repr

structure ProcessingContext where
  documentId : Nat
  docCode : String
  kbId : Nat
  domainCode : String
  businessScene : Option String
  sourceType : String
  sourcePath : String
  createdByActorCode : Option String
  statusBefore : DocumentStatus
  operationId : String
deriving DecidableEq, Repr

structure PendingArtifact where
  artifactType : DocumentArtifactType
  artifactRole : DocumentArtifactRole
  artifactFormat : String
  artifactUri : FilePath
  metadata : Metadata
deriving DecidableEq, Repr

structure ProcessingExecutionResult where
  documentId : Nat
  operationId : String
  cleanedPath : FilePath
  secondaryArtifact : Option PendingArtifact
  cleanedArtifact : PendingArtifact
deriving DecidableEq, Repr

structure ProcessDocumentResult where
  documentId : Nat
  docCode : String
  sourceType : String
  sourceUri : String
  cleanedUri : Option FilePath
  status : DocumentStatus
deriving DecidableEq, Repr

/-! ## Claiming -/

def claimProcessing (operationId : String) (rows : DocumentRows) :
    Except StageError (ProcessingContext × DocumentRows) := do
  let document := rows.document
  checkClaim .process document
  let context : ProcessingContext :=
    { documentId := document.id
      docCode := document.docCode
      kbId := document.kbId
      domainCode := document.domainCode
      businessScene := document.businessScene
      sourceType := document.sourceType
      sourcePath := document.sourceUri
      createdByActorCode := document.createdByActorCode
      statusBefore := document.status
      operationId := operationId }
  return (context,
    { rows with
      document :=
        { document with status := .processing, activeOperationId := some operationId } })

/-- `_assert_processing_owned`, inside the fence. -/
def assertProcessingOwned (context : ProcessingContext) (rows : DocumentRows) :
    Except StageError Unit :=
  let document := rows.document
  if document.status ≠ .processing ∨ document.activeOperationId ≠ some context.operationId then
    .error (.aborted "当前处理 Operation ownership 已失效")
  else if document.lifecycleStatus ∉ processableLifecycleStatuses then
    .error (.aborted "文档处理期间已经失效")
  else if document.storageStatus ≠ .active then .error (.aborted "文档已进入归档流程")
  else .ok ()

/-! ## Files -/

section Files

variable (files : List FilePath)

def writeFile (path : FilePath) : List FilePath :=
  if path ∈ files then files else files ++ [path]

/-- A directory of one operation. -/
structure OperationDir where
  root : String
  operationId : String
deriving DecidableEq, Repr

def OperationDir.file (dir : OperationDir) (name : String) : FilePath :=
  ⟨dir.root, dir.operationId, name⟩

/-- `shutil.rmtree`. -/
def rmtree (dir : OperationDir) : List FilePath :=
  files.filter fun f => ¬ (f.root = dir.root ∧ f.operationId = dir.operationId)

/-- `_operation_scoped_dir`: the operation id must be a plain file name. -/
def operationScopedDir (root operationId : String) : Except StageError OperationDir :=
  if operationId = "" ∨ '/' ∈ operationId.toList ∨ operationId = "." ∨ operationId = ".." then
    .error (.runtime "operation_id 不能用于文件路径")
  else .ok ⟨root, operationId⟩

/-- `_promote_file`: the move refuses to overwrite. -/
def promoteFile (source : FilePath) (destinationDir : OperationDir) :
    Except StageError (FilePath × List FilePath) :=
  let destination := destinationDir.file source.name
  if destination ∈ files then .error (.runtime ("正式产物路径已存在: " ++ destination.render))
  else if source ∉ files then .error (.runtime "No such file or directory")
  else .ok (destination, files.filter (· ≠ source) ++ [destination])

end Files

/-! ## Execution -/

/-- What `Path.exists` and `Path.is_file` say about the raw file. -/
inductive SourceFile
  | missing | directory | file
deriving DecidableEq, Repr

/-- What the preparation meets outside the database: the raw file, the random part of the artifact
code and the converter's metadata. -/
structure Conversion where
  source : SourceFile
  codeSuffix : String
  metadata : Metadata
deriving DecidableEq, Repr

structure PreparedProcessSource where
  sourceType : String
  secondaryArtifact : Option PendingArtifact
deriving DecidableEq, Repr

def generateArtifactCode (docCode codeSuffix : String) : String :=
  let suffix := "_ART_DOCLING_MD_" ++ codeSuffix
  String.ofList (docCode.toList.take (100 - suffix.length)) ++ suffix

def checkSource (context : ProcessingContext) : SourceFile → Except StageError Unit
  | .missing => .error (.application ⟨404, "原始文件不存在: " ++ context.sourcePath⟩)
  | .directory => .error (.application ⟨400, "原始路径不是有效文件: " ++ context.sourcePath⟩)
  | .file => .ok ()

/-- `_execute_processing` up to `prepare_process_source`, with the files it leaves. -/
def prepareProcessSource (settings : ProcessingSettings) (context : ProcessingContext)
    (conversion : Conversion) (files : List FilePath) :
    Except StageError (PreparedProcessSource × List FilePath) := do
  checkSource context conversion.source
  let operationDir ← operationScopedDir settings.stagingStorageDir context.operationId
  let sourceType := normalizeSourceType context.sourceType
  if requiresExternalProcessing sourceType then
    let path :=
      operationDir.file (generateArtifactCode context.docCode conversion.codeSuffix ++ ".md")
    let secondary : PendingArtifact :=
      { artifactType := .secondaryText
        artifactRole := .processInput
        artifactFormat := "md"
        artifactUri := path
        metadata := conversion.metadata }
    return (⟨"md", some secondary⟩, writeFile files path)
  else return (⟨sourceType, none⟩, files)

/-- `get_processor(source_type).source_type`; an unknown type has no processor. -/
def getProcessor (sourceType : String) : Except StageError String :=
  let normalized := normalizeSourceType sourceType
  if normalized ∈ localProcessSourceTypes then .ok normalized
  else .error (.runtime ("当前暂不支持处理该文件类型: " ++ sourceType))

/-- The rest of `_execute_processing`: the cleaned file, with the metadata of the processor. -/
def executeProcessing (settings : ProcessingSettings) (context : ProcessingContext)
    (prepared : PreparedProcessSource) (metadata : Metadata) (files : List FilePath) :
    Except StageError (ProcessingExecutionResult × List FilePath) := do
  let operationDir ← operationScopedDir settings.stagingStorageDir context.operationId
  let cleanedPath := operationDir.file (context.docCode ++ ".cleaned." ++ prepared.sourceType)
  let processed ← getProcessor prepared.sourceType
  let cleanedArtifact : PendingArtifact :=
    { artifactType := .cleanedText
      artifactRole := .processOutput
      artifactFormat := processed
      artifactUri := cleanedPath
      metadata := metadata }
  return (⟨context.documentId, context.operationId, cleanedPath, prepared.secondaryArtifact,
    cleanedArtifact⟩, writeFile files cleanedPath)

/-! ## Promotion -/

/-- `_promote_processing_artifacts`, the cleaned file. -/
def promoteCleaned (settings : ProcessingSettings) (result : ProcessingExecutionResult)
    (files : List FilePath) : Except StageError (ProcessingExecutionResult × List FilePath) := do
  let cleanedDir ← operationScopedDir settings.cleanedStorageDir result.operationId
  let (cleanedPath, files) ← promoteFile files result.cleanedPath cleanedDir
  return ({ result with
      cleanedPath := cleanedPath
      cleanedArtifact := { result.cleanedArtifact with artifactUri := cleanedPath } }, files)

/-- `_promote_processing_artifacts`, the secondary file, if there is one. -/
def promoteSecondary (settings : ProcessingSettings) (result : ProcessingExecutionResult)
    (files : List FilePath) : Except StageError (ProcessingExecutionResult × List FilePath) :=
  match result.secondaryArtifact with
  | none => .ok (result, files)
  | some secondary => do
    let secondaryDir ← operationScopedDir settings.secondaryTextStorageDir result.operationId
    let (secondaryPath, files) ← promoteFile files secondary.artifactUri secondaryDir
    return ({ result with
      secondaryArtifact := some { secondary with artifactUri := secondaryPath } }, files)

/-- `_promote_processing_artifacts`, the end: the staging directory goes. -/
def clearStaging (settings : ProcessingSettings) (result : ProcessingExecutionResult)
    (files : List FilePath) : Except StageError (List FilePath) := do
  let operationDir ← operationScopedDir settings.stagingStorageDir result.operationId
  return rmtree files operationDir

/-! ## Completing -/

/-- `_persist_artifact`: the old active artifacts of the same kind are superseded. -/
def persistArtifact (rows : DocumentRows) (artifact : PendingArtifact) : DocumentRows :=
  let rows := rows.markActiveAsSuperseded artifact.artifactType artifact.artifactRole
    artifact.artifactFormat
  { rows with
    artifacts := rows.artifacts ++
      [{ artifactType := artifact.artifactType
         artifactRole := artifact.artifactRole
         artifactFormat := artifact.artifactFormat
         artifactUri := artifact.artifactUri
         status := .active
         metadataJson := artifact.metadata }] }

def persistSecondary (rows : DocumentRows) (artifact : Option PendingArtifact) : DocumentRows :=
  artifact.elim rows (persistArtifact rows)

def completeProcessing (result : ProcessingExecutionResult) (rows : DocumentRows) :
    Except StageError (ProcessDocumentResult × DocumentRows) := do
  checkComplete .process rows.document result.operationId
  let rows := persistSecondary rows result.secondaryArtifact
  let rows := persistArtifact rows result.cleanedArtifact
  let document :=
    { rows.document with
      cleanedUri := some result.cleanedPath
      status := .processed
      activeOperationId := none }
  return (⟨document.id, document.docCode, document.sourceType, document.sourceUri,
      document.cleanedUri, document.status⟩, { rows with document := document })

/-! ## Compensating -/

/-- `_fail_processing`. -/
def failProcessing (operationId : String) (rows : DocumentRows) :
    FailureStateResult × DocumentRows :=
  let document := rows.document
  if document.activeOperationId ≠ some operationId then
    (⟨false, some document.status, some document.status⟩, rows)
  else if document.status = .processing then
    (⟨true, some document.status, some .failed⟩,
      { rows with document := { document with status := .failed } })
  else (⟨false, some document.status, some document.status⟩, rows)

/-- The second transaction of the compensator: may the operation's directories go? -/
def ownsFailed (operationId : String) (rows : DocumentRows) : Bool :=
  rows.document.activeOperationId = some operationId ∧ rows.document.status = .failed

/-- The directories of an operation, each once. -/
def operationDirs (settings : ProcessingSettings) (operationId : String) :
    Except StageError (List OperationDir) := do
  let staging ← operationScopedDir settings.stagingStorageDir operationId
  let cleaned ← operationScopedDir settings.cleanedStorageDir operationId
  let secondary ← operationScopedDir settings.secondaryTextStorageDir operationId
  return PyString.fromKeys [staging, cleaned, secondary]

/-- The third transaction: the document is released. -/
def releaseProcessing (operationId : String) (rows : DocumentRows) : DocumentRows :=
  if rows.document.activeOperationId ≠ some operationId then rows
  else { rows with document := { rows.document with activeOperationId := none } }

end DocFlow.Pipeline
