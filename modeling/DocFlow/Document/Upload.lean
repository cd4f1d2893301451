import DocFlow.Document.Lifecycle

/-!
# Uploading a document

`UploadDocumentUseCase`: the raw file is written outside the transaction that inserts the row, and is
removed when the upload fails before its commit.  Uploads run beside each other, and beside the
lifecycle changes and the pipeline; every step of them may fail, the removal of the file as well, the
task may be cancelled while it waits for the next chunk, the process may die, and a commit may raise
although the server has committed.

The codes of the documents are taken to be different.  `generate_doc_code` draws eight hex digits for
every second, so two codes may in fact be the same; then one clean-up removes the file of the other
upload.

`upload_all_or_nothing`: the file of an upload that has ended is there just when its row is, unless the
upload was abandoned before its commit, could not remove its file, or has lost the answer of the commit;
and a row describes its file.
-/

namespace DocFlow.Upload

open Pipeline

abbrev Bytes := List UInt8

/-! ## The checks of a file -/

/-- `UploadFile`, without its stream. -/
structure UploadFile where
  filename : Option String
  contentType : String
deriving DecidableEq, Repr

inductive UploadError
  /-- `HTTPException`, which the checks of the file raise -/
  | http (statusCode : Nat) (detail : String)
  | stage (e : StageError)
deriving DecidableEq, Repr

def badRequest (detail : String) : UploadError := .stage (.application ⟨400, detail⟩)

def allowedExtensions : List String :=
  [".pdf", ".md", ".markdown", ".csv", ".txt", ".doc", ".docx", ".ppt", ".pptx"]

def dangerousChars : List (List Char) := [['.', '.'], ['/'], ['\\'], [Char.ofNat 0]]

/-- `validate_filename`. -/
def validateFilename (filename : String) : Except UploadError Unit :=
  if filename = "" then .error (.http 400 "文件名不能为空")
  else if ∃ chars ∈ dangerousChars, chars <:+: filename.toList then
    .error (.http 400 "文件名包含非法字符")
  else .ok ()

/-- `filename.rsplit(".", 1)[-1]`. -/
def lastPart (filename : String) : String :=
  String.ofList (filename.toList.reverse.takeWhile fun c => c ≠ '.').reverse

/-- What the use case is given: `str.lower`, the white list of content types, and SHA-256. -/
structure UploadPorts where
  pyLower : String → String
  allowedContentTypes : List String
  sha256 : Bytes → String

/-- `get_safe_extension`. -/
def getSafeExtension (ports : UploadPorts) (filename : String) : Except UploadError String := do
  validateFilename filename
  if '.' ∉ filename.toList then .error (.http 400 "文件必须包含扩展名")
  else
    let ext := PyString.strip (ports.pyLower (lastPart filename))
    if "." ++ ext ∉ allowedExtensions then .error (.http 400 ("不支持的文件类型：" ++ ext))
    else .ok ext

/-- `validate_content_type`. -/
def validateContentType (ports : UploadPorts) (file : UploadFile) : Except UploadError Unit :=
  if file.contentType ∉ ports.allowedContentTypes then
    .error (.http 400 ("不支持的 Content-Type: " ++ file.contentType))
  else .ok ()

/-! ## The paths -/

structure UploadSettings extends DocumentUploadSettings where
  maxUploadFileSize : Nat
  rawExternalStorageDir : String
  rawLocalStorageDir : String
  defaultCreatedByActorCode : String

/-- A file in one of the raw directories. -/
structure RawPath where
  dir : String
  name : String
deriving DecidableEq, Repr

def RawPath.render (path : RawPath) : String := path.dir ++ "/" ++ path.name

def getRawStorageDir (sourceType : String) (settings : UploadSettings) : String :=
  if requiresExternalProcessing sourceType then settings.rawExternalStorageDir
  else settings.rawLocalStorageDir

/-- `f"{doc_code}.{source_extension}"`. -/
def savedFilename (docCode sourceExtension : String) : String := docCode ++ "." ++ sourceExtension

/-! ## An upload -/

/-- The form beside the file. -/
structure UploadMeta where
  kbId : Nat
  domainCode : String
  businessScene : Option String
  title : String
  effectiveAt : Option Time
  expiredAt : Option Time
deriving DecidableEq, Repr

/-- What an upload has settled before it reads, and what the stream has given it since. -/
structure Draft where
  file : UploadFile
  info : UploadMeta
  actorCode : String
  filename : String
  sourceType : String
  path : RawPath
  received : Bytes
deriving DecidableEq, Repr

/-- `total_size`. -/
def Draft.totalSize (draft : Draft) : Nat := draft.received.length

inductive UploadEnding
  | created (document : Document)
  /-- committed; behind the commit something has raised, and the file is kept -/
  | raisedLate (document : Document)
  /-- nothing is left -/
  | rejected (e : UploadError)
  /-- the clean-up has raised, and the file has stayed -/
  | uncleaned (e : UploadError)
  /-- cancelled while reading, or the process has died before the commit; nothing is cleaned up -/
  | abandoned
  /-- the commit has raised although the server has committed; cleaned up -/
  | answerLost
deriving DecidableEq, Repr

inductive UploadPhase
  | reading (draft : Draft)
  | written (draft : Draft)
  | hashed (draft : Draft) (contentHash : String)
  | finalizing (draft : Draft) (contentHash : String)
  | ended (ending : UploadEnding)
deriving DecidableEq, Repr

structure UploadState where
  files : RawPath → Option Bytes
  documents : Documents
  /-- the column `file_size`, by document -/
  fileSizes : Nat → Nat
  nextDocumentId : Nat
  uploads : Nat → Option UploadPhase

/-- What fails before the first chunk. -/
inductive StartFault
  | mkdir | log | openFile
deriving DecidableEq, Repr

/-- What `file.read` and `buffer.write` do. -/
inductive ReadEvent
  /-- no bytes are the end of the stream -/
  | chunk (bytes : Bytes)
  | raised
  | cancelled
deriving DecidableEq, Repr

inductive CommitOutcome
  | committed (exitRaises : Bool)
  | failed
  | answerLost
deriving DecidableEq, Repr

/-- The steps; in each of them that may clean up, `unlink` may raise. -/
inductive UploadAction
  | start (upload : Nat) (file : UploadFile) (info : UploadMeta) (actorCode : Option String)
      (fault : Option StartFault) (unlinkRaises : Bool)
  | read (upload : Nat) (event : ReadEvent) (unlinkRaises : Bool)
  /-- the saved file is logged and hashed, and the hash is logged -/
  | save (upload : Nat) (fault unlinkRaises : Bool)
  | query (upload : Nat) (fault unlinkRaises : Bool)
  | register (upload : Nat) (now : Time) (outcome : CommitOutcome) (unlinkRaises : Bool)
  /-- the process dies -/
  | crash (upload : Nat)
  | deactivate (documentId : Nat) (reason : DocumentLifecycleStatus) (replacedBy : Option Nat)
      (now : Time) (committed : Bool)
  /-- a transaction of the pipeline -/
  | work (documentId : Nat) (status : DocumentStatus) (cleanedUri : Option FilePath)
      (activeOperationId : Option String)

/-- The upload that takes the step. -/
def UploadAction.upload? : UploadAction → Option Nat
  | .start upload _ _ _ _ _ => some upload
  | .read upload _ _ => some upload
  | .save upload _ _ => some upload
  | .query upload _ _ => some upload
  | .register upload _ _ _ => some upload
  | .crash upload => some upload
  | .deactivate .. | .work .. => none

namespace UploadState

def setUpload (s : UploadState) (upload : Nat) (phase : UploadPhase) : UploadState :=
  { s with uploads := Function.update s.uploads upload (some phase) }

def writeFile (s : UploadState) (path : RawPath) (content : Bytes) : UploadState :=
  { s with files := Function.update s.files path (some content) }

/-- `cleanup_file`; an `OSError` that is no `FileNotFoundError` goes through. -/
def cleanupFile (s : UploadState) (path : RawPath) (unlinkRaises : Bool) :
    Except UploadError UploadState :=
  if unlinkRaises = true then .error (.stage (.runtime "unlink failed"))
  else .ok { s with files := Function.update s.files path none }

def reject (s : UploadState) (upload : Nat) (draft : Draft) (e : UploadError) (unlinkRaises : Bool) :
    UploadState :=
  match s.cleanupFile draft.path unlinkRaises with
  | .ok s => s.setUpload upload (.ended (.rejected e))
  | .error e =>
    s.setUpload upload (.ended (if (s.files draft.path).isSome = true then .uncleaned e else .rejected e))

/-- An exception that is not one of the application. -/
def fail (s : UploadState) (upload : Nat) (draft : Draft) (unlinkRaises : Bool) : UploadState :=
  s.reject upload draft (.stage (.runtime "upload step failed")) unlinkRaises

end UploadState

section Steps

variable (ports : UploadPorts) (settings : UploadSettings) (docCode : Nat → String)

/-- The validation: what is settled before the directories are made. -/
def validate (docCode : String) (file : UploadFile) (info : UploadMeta) (actorCode : Option String) :
    Except UploadError Draft := do
  let filename := file.filename.getD ""
  if filename = "" then .error (badRequest "必须上传文件")
  else
    validateContentType ports file
    let sourceExtension ← getSafeExtension ports filename
    let sourceType := normalizeSourceType sourceExtension
    .ok
      { file := file
        info := info
        actorCode := match actorCode with
          | none | some "" => settings.defaultCreatedByActorCode
          | some code => code
        filename := filename
        sourceType := sourceType
        path := ⟨getRawStorageDir sourceType settings, savedFilename docCode sourceExtension⟩
        received := [] }

/-- Up to the opened file. -/
def stepStart (s : UploadState) (upload : Nat) (file : UploadFile) (info : UploadMeta)
    (actorCode : Option String) (fault : Option StartFault) (unlinkRaises : Bool) : UploadState :=
  match validate ports settings (docCode upload) file info actorCode with
  | .error e => s.setUpload upload (.ended (.rejected e))
  | .ok draft =>
    match fault with
    -- `save_path` is not set yet
    | some .mkdir => s.setUpload upload (.ended (.rejected (.stage (.runtime "mkdir failed"))))
    | some .log | some .openFile => s.fail upload draft unlinkRaises
    | none => (s.writeFile draft.path []).setUpload upload (.reading draft)

def sizeMessage : String :=
  "文件超过 " ++ toString (settings.maxUploadFileSize / 1024 / 1024) ++ "MB 限制"

/-- One turn of the loop that writes the file. -/
def stepRead (s : UploadState) (upload : Nat) (draft : Draft) (unlinkRaises : Bool) :
    ReadEvent → UploadState
  | .raised => s.fail upload draft unlinkRaises
  | .cancelled => s.setUpload upload (.ended .abandoned)
  | .chunk [] =>
    if draft.totalSize = 0 then s.reject upload draft (badRequest "不能上传空文件") unlinkRaises
    else s.setUpload upload (.written draft)
  | .chunk bytes =>
    let draft := { draft with received := draft.received ++ bytes }
    if settings.maxUploadFileSize < draft.totalSize then
      s.reject upload draft (badRequest (sizeMessage settings)) unlinkRaises
    else
      (s.writeFile draft.path ((s.files draft.path).getD [] ++ bytes)).setUpload upload
        (.reading draft)

/-- The hash is that of the file as it is stored. -/
def stepSave (s : UploadState) (upload : Nat) (draft : Draft) (fault unlinkRaises : Bool) :
    UploadState :=
  match fault, s.files draft.path with
  | false, some content => s.setUpload upload (.hashed draft (ports.sha256 content))
  | _, _ => s.fail upload draft unlinkRaises

def stepQuery (s : UploadState) (upload : Nat) (draft : Draft) (contentHash : String)
    (fault unlinkRaises : Bool) : UploadState :=
  if fault = true then s.fail upload draft unlinkRaises
  else
    match getActiveByHashInKb s.documents draft.info.kbId contentHash with
    | some duplicated => s.reject upload draft
      (.stage (.application ⟨409, "已存在相同有效文件: " ++ duplicated.docCode⟩)) unlinkRaises
    | none => s.setUpload upload (.finalizing draft contentHash)

/-- What is inserted. -/
def uploadRequest (docCode : String) (draft : Draft) (contentHash : String) : UploadRequest where
  docCode := docCode
  kbId := draft.info.kbId
  domainCode := draft.info.domainCode
  businessScene := draft.info.businessScene
  title := draft.info.title
  originalFilename := draft.filename
  sourceType := draft.sourceType
  sourceUri := draft.path.render
  contentHash := contentHash
  effectiveAt := draft.info.effectiveAt
  expiredAt := draft.info.expiredAt
  actorCode := draft.actorCode

/-- The insertion and the commit. -/
def stepRegister (s : UploadState) (upload : Nat) (draft : Draft) (contentHash : String) (now : Time)
    (outcome : CommitOutcome) (unlinkRaises : Bool) : UploadState :=
  let document := buildDocument settings.toDocumentUploadSettings
    (uploadRequest (docCode upload) draft contentHash) s.nextDocumentId now
  let s := { s with nextDocumentId := s.nextDocumentId + 1 }
  match createDocument s.documents document with
  | (.error e, _) => s.reject upload draft (.stage e) unlinkRaises
  | (.ok _, documents) =>
    let committed := { s with
      documents := documents
      fileSizes := Function.update s.fileSizes document.id draft.totalSize }
    match outcome with
    | .failed => s.fail upload draft unlinkRaises
    | .answerLost =>
      match committed.cleanupFile draft.path unlinkRaises with
      | .ok s => s.setUpload upload (.ended .answerLost)
      | .error _ => committed.setUpload upload (.ended (.raisedLate document))
    | .committed false => committed.setUpload upload (.ended (.created document))
    | .committed true => committed.setUpload upload (.ended (.raisedLate document))

def step (s : UploadState) : UploadAction → Option UploadState
  | .start upload file info actorCode fault unlinkRaises =>
    match s.uploads upload with
    | none => some (stepStart ports settings docCode s upload file info actorCode fault unlinkRaises)
    | some _ => none
  | .read upload event unlinkRaises =>
    match s.uploads upload with
    | some (.reading draft) => some (stepRead settings s upload draft unlinkRaises event)
    | _ => none
  | .save upload fault unlinkRaises =>
    match s.uploads upload with
    | some (.written draft) => some (stepSave ports s upload draft fault unlinkRaises)
    | _ => none
  | .query upload fault unlinkRaises =>
    match s.uploads upload with
    | some (.hashed draft contentHash) =>
      some (stepQuery s upload draft contentHash fault unlinkRaises)
    | _ => none
  | .register upload now outcome unlinkRaises =>
    match s.uploads upload with
    | some (.finalizing draft contentHash) =>
      some (stepRegister settings docCode s upload draft contentHash now outcome unlinkRaises)
    | _ => none
  | .crash upload =>
    match s.uploads upload with
    | none | some (.ended _) => none
    | some _ => some (s.setUpload upload (.ended .abandoned))
  | .deactivate documentId reason replacedBy now committed =>
    let result := deactivateDocument s.documents documentId reason replacedBy now
    some (if committed = true then { s with documents := result.2 } else s)
  | .work documentId status cleanedUri activeOperationId =>
    (s.documents.get? documentId).map fun document =>
      { s with
        documents := s.documents.save
          { document with
            status := status
            cleanedUri := cleanedUri
            activeOperationId := activeOperationId } }

def machine : Machine UploadState UploadAction :=
  ⟨fun s => (∀ path, s.files path = none) ∧ s.documents.rows = [] ∧ ∀ upload, s.uploads upload = none,
    step ports settings docCode⟩

end Steps

/-! ## Whose file it is -/

/-- The file can only be one of this upload. -/
def Owns (docCode : Nat → String) (upload : Nat) (path : RawPath) : Prop :=
  ∃ sourceExtension : String, '.' ∉ sourceExtension.toList ∧
    path.name = savedFilename (docCode upload) sourceExtension

theorem append_dot_inj {a b e f : List Char} (he : '.' ∉ e) (hf : '.' ∉ f)
    (h : a ++ '.' :: e = b ++ '.' :: f) : a = b := by
  rcases List.append_eq_append_iff.mp h with ⟨c, hb, hc⟩ | ⟨c, ha, hc⟩
  · cases c with
    | nil => rw [hb, List.append_nil]
    | cons x c =>
      obtain ⟨-, hc⟩ := List.cons.inj hc
      exact absurd (hc ▸ List.mem_append_right c (List.mem_cons_self ..)) he
  · cases c with
    | nil => rw [ha, List.append_nil]
    | cons x c =>
      obtain ⟨-, hc⟩ := List.cons.inj hc
      exact absurd (hc ▸ List.mem_append_right c (List.mem_cons_self ..)) hf

theorem Owns.unique {docCode : Nat → String} (hdistinct : Function.Injective docCode)
    {path : RawPath} {i j : Nat} (hi : Owns docCode i path) (hj : Owns docCode j path) : i = j := by
  obtain ⟨e, he, hie⟩ := hi
  obtain ⟨f, hf, hjf⟩ := hj
  have h : (savedFilename (docCode i) e).toList = (savedFilename (docCode j) f).toList := by
    rw [← hie, hjf]
  simp only [savedFilename, String.toList_append, List.append_assoc] at h
  exact hdistinct (String.toList_injective (append_dot_inj he hf h))

theorem dot_not_mem_of_allowed {ext : String} (h : "." ++ ext ∈ allowedExtensions) :
    '.' ∉ ext.toList := by
  have hdots : ∀ allowed ∈ allowedExtensions, '.' ∉ allowed.toList.tail := by decide
  have := hdots _ h
  rwa [String.toList_append] at this

section Validate

variable {ports : UploadPorts} {settings : UploadSettings} {docCode : String} {file : UploadFile}
  {info : UploadMeta} {actorCode : Option String} {draft : Draft}

theorem getSafeExtension_ok {filename ext : String} (h : getSafeExtension ports filename = .ok ext) :
    "." ++ ext ∈ allowedExtensions := by
  rw [getSafeExtension] at h
  cases hname : validateFilename filename with
  | error e =>
    rw [hname] at h
    cases h
  | ok u =>
    simp only [hname, bind, Except.bind] at h
    split at h
    · cases h
    · split at h
      · cases h
      · next hallowed =>
        obtain rfl := Except.ok.inj h
        exact not_not.mp hallowed

/-- What the validation settles. -/
theorem validate_ok (h : validate ports settings docCode file info actorCode = .ok draft) :
    draft.received = [] ∧ ∃ ext : String, '.' ∉ ext.toList ∧
      draft.path.name = savedFilename docCode ext := by
  simp only [validate] at h
  split at h
  · cases h
  · cases htype : validateContentType ports file with
    | error e =>
      rw [htype] at h
      cases h
    | ok u =>
      cases hext : getSafeExtension ports (file.filename.getD "") with
      | error e =>
        simp only [htype, hext, bind, Except.bind] at h
        cases h
      | ok ext =>
        simp only [htype, hext, bind, Except.bind] at h
        obtain rfl := Except.ok.inj h
        exact ⟨rfl, ext, dot_not_mem_of_allowed (getSafeExtension_ok hext), rfl⟩

end Validate

/-! ## What holds of an upload -/

section Sound

variable {ports : UploadPorts} {settings : UploadSettings} {docCode : Nat → String}

def NoFile (docCode : Nat → String) (s : UploadState) (upload : Nat) : Prop :=
  ∀ path, Owns docCode upload path → s.files path = none

def NoRow (docCode : Nat → String) (s : UploadState) (upload : Nat) : Prop :=
  ∀ d ∈ s.documents, d.docCode ≠ docCode upload

/-- An upload in flight has no row, and no file beside its own. -/
structure Alone (docCode : Nat → String) (s : UploadState) (upload : Nat) (draft : Draft) : Prop where
  owned : Owns docCode upload draft.path
  only : ∀ path, Owns docCode upload path → path ≠ draft.path → s.files path = none
  noRow : NoRow docCode s upload

/-- Its file has what the stream has given. -/
structure Writing (settings : UploadSettings) (docCode : Nat → String) (s : UploadState) (upload : Nat)
    (draft : Draft) : Prop extends Alone docCode s upload draft where
  file : s.files draft.path = some draft.received
  size : draft.totalSize ≤ settings.maxUploadFileSize

/-- The row describes this file. -/
structure Describes (ports : UploadPorts) (settings : UploadSettings) (s : UploadState) (d : Document)
    (path : RawPath) (content : Bytes) : Prop where
  file : s.files path = some content
  sourceUri : d.sourceUri = path.render
  contentHash : d.contentHash = ports.sha256 content
  fileSize : s.fileSizes d.id = content.length
  size : 0 < content.length ∧ content.length ≤ settings.maxUploadFileSize

/-- An upload has its row, and every row of it describes its only file. -/
structure Kept (ports : UploadPorts) (settings : UploadSettings) (docCode : Nat → String)
    (s : UploadState) (upload : Nat) (path : RawPath) (content : Bytes) : Prop where
  owned : Owns docCode upload path
  only : ∀ other, Owns docCode upload other → other ≠ path → s.files other = none
  row : ∃ d ∈ s.documents, d.docCode = docCode upload
  describes : ∀ d ∈ s.documents, d.docCode = docCode upload → Describes ports settings s d path content

/-- What holds of an upload, by its phase. -/
def PhaseSound (ports : UploadPorts) (settings : UploadSettings) (docCode : Nat → String)
    (s : UploadState) (upload : Nat) : Option UploadPhase → Prop
  | none | some (.ended (.rejected _)) => NoFile docCode s upload ∧ NoRow docCode s upload
  | some (.reading draft) => Writing settings docCode s upload draft
  | some (.written draft) => Writing settings docCode s upload draft ∧ 0 < draft.totalSize
  | some (.hashed draft contentHash) | some (.finalizing draft contentHash) =>
    Writing settings docCode s upload draft ∧ 0 < draft.totalSize ∧
      contentHash = ports.sha256 draft.received
  | some (.ended (.created _)) | some (.ended (.raisedLate _)) =>
    ∃ path content, Kept ports settings docCode s upload path content
  | some (.ended .abandoned) | some (.ended (.uncleaned _)) =>
    (∃ path content, Owns docCode upload path ∧ s.files path = some content) ∧
      NoRow docCode s upload
  | some (.ended .answerLost) =>
    NoFile docCode s upload ∧ ∃ d ∈ s.documents, d.docCode = docCode upload

/-! ## What others do -/

/-- To an upload, the two states are the same. -/
structure Framed (docCode : Nat → String) (s s' : UploadState) (upload : Nat) : Prop where
  files : ∀ path, Owns docCode upload path → s'.files path = s.files path
  back : ∀ d' ∈ s'.documents, d'.docCode = docCode upload → ∃ d ∈ s.documents,
    d.docCode = docCode upload ∧ d'.sourceUri = d.sourceUri ∧ d'.contentHash = d.contentHash ∧
      s'.fileSizes d'.id = s.fileSizes d.id
  forth : ∀ d ∈ s.documents, d.docCode = docCode upload →
    ∃ d' ∈ s'.documents, d'.docCode = docCode upload

variable {s s' : UploadState} {upload : Nat} {draft : Draft}

theorem NoFile.frame (h : NoFile docCode s upload) (hframe : Framed docCode s s' upload) :
    NoFile docCode s' upload :=
  fun path hpath => (hframe.files path hpath).trans (h path hpath)

theorem NoRow.frame (h : NoRow docCode s upload) (hframe : Framed docCode s s' upload) :
    NoRow docCode s' upload := by
  intro d' hd' hcode
  obtain ⟨d, hd, hdcode, -⟩ := hframe.back d' hd' hcode
  exact h d hd hdcode

theorem Writing.frame (h : Writing settings docCode s upload draft)
    (hframe : Framed docCode s s' upload) : Writing settings docCode s' upload draft where
  owned := h.owned
  only path hpath hne := (hframe.files path hpath).trans (h.only path hpath hne)
  noRow := h.noRow.frame hframe
  file := (hframe.files _ h.owned).trans h.file
  size := h.size

theorem Kept.frame {path : RawPath} {content : Bytes}
    (h : Kept ports settings docCode s upload path content) (hframe : Framed docCode s s' upload) :
    Kept ports settings docCode s' upload path content where
  owned := h.owned
  only other hother hne := (hframe.files other hother).trans (h.only other hother hne)
  row := by
    obtain ⟨d, hd, hcode⟩ := h.row
    exact hframe.forth d hd hcode
  describes d' hd' hcode := by
    obtain ⟨d, hd, hdcode, huri, hhash, hsize⟩ := hframe.back d' hd' hcode
    have hold := h.describes d hd hdcode
    exact ⟨(hframe.files path h.owned).trans hold.file, huri.trans hold.sourceUri,
      hhash.trans hold.contentHash, hsize.trans hold.fileSize, hold.size⟩

theorem PhaseSound.frame {phase : Option UploadPhase}
    (h : PhaseSound ports settings docCode s upload phase) (hframe : Framed docCode s s' upload) :
    PhaseSound ports settings docCode s' upload phase := by
  cases phase with
  | none => exact ⟨h.1.frame hframe, h.2.frame hframe⟩
  | some phase =>
    cases phase with
    | reading draft => exact Writing.frame h hframe
    | written draft => exact ⟨h.1.frame hframe, h.2⟩
    | hashed draft contentHash => exact ⟨h.1.frame hframe, h.2⟩
    | finalizing draft contentHash => exact ⟨h.1.frame hframe, h.2⟩
    | ended ending =>
      cases ending with
      | created d | raisedLate d =>
        obtain ⟨path, content, hkept⟩ := h
        exact ⟨path, content, hkept.frame hframe⟩
      | rejected e => exact ⟨h.1.frame hframe, h.2.frame hframe⟩
      | abandoned | uncleaned e =>
        obtain ⟨⟨path, content, hpath, hfile⟩, hrow⟩ := h
        exact ⟨⟨path, content, hpath, (hframe.files path hpath).trans hfile⟩, hrow.frame hframe⟩
      | answerLost =>
        obtain ⟨hfile, d, hd, hcode⟩ := h
        exact ⟨hfile.frame hframe, hframe.forth d hd hcode⟩

/-! ## What a step does -/

/-- A step of an upload: it touches its phase, its files and its row. -/
structure Acted (ports : UploadPorts) (settings : UploadSettings) (docCode : Nat → String)
    (s s' : UploadState) (upload : Nat) : Prop where
  uploads : ∀ other, other ≠ upload → s'.uploads other = s.uploads other
  files : ∀ path, ¬ Owns docCode upload path → s'.files path = s.files path
  rows : ∀ d : Document, d.docCode ≠ docCode upload → (d ∈ s'.documents ↔ d ∈ s.documents)
  sizes : ∀ d ∈ s.documents, s'.fileSizes d.id = s.fileSizes d.id
  own : PhaseSound ports settings docCode s' upload (s'.uploads upload)

theorem Acted.framed (h : Acted ports settings docCode s s' upload)
    (hdistinct : Function.Injective docCode) {other : Nat} (hne : other ≠ upload) :
    Framed docCode s s' other where
  files path hpath := h.files path fun hown => hne (hpath.unique hdistinct hown)
  back d hd hcode := by
    have hne' : d.docCode ≠ docCode upload := fun heq => hne (hdistinct (hcode.symm.trans heq))
    have hd' := (h.rows d hne').mp hd
    exact ⟨d, hd', hcode, rfl, rfl, h.sizes d hd'⟩
  forth d hd hcode := by
    have hne' : d.docCode ≠ docCode upload := fun heq => hne (hdistinct (hcode.symm.trans heq))
    exact ⟨d, (h.rows d hne').mpr hd, hcode⟩

/-- A step that leaves the database alone. -/
theorem acted_of_files {phase : UploadPhase}
    (huploads : s'.uploads = Function.update s.uploads upload (some phase))
    (hfiles : ∀ path, ¬ Owns docCode upload path → s'.files path = s.files path)
    (hdocuments : s'.documents = s.documents) (hsizes : s'.fileSizes = s.fileSizes)
    (hown : PhaseSound ports settings docCode s' upload (some phase)) :
    Acted ports settings docCode s s' upload where
  uploads other hne := by rw [huploads, Function.update_of_ne hne]
  files := hfiles
  rows d _ := by rw [hdocuments]
  sizes d _ := by rw [hsizes]
  own := by
    rw [huploads, Function.update_self]
    exact hown

theorem acted_setUpload {phase : UploadPhase}
    (h : PhaseSound ports settings docCode s upload (some phase)) :
    Acted ports settings docCode s (s.setUpload upload phase) upload :=
  acted_of_files rfl (fun _ _ => rfl) rfl rfl
    (h.frame ⟨fun _ _ => rfl, fun d hd hcode => ⟨d, hd, hcode, rfl, rfl, rfl⟩,
      fun d hd hcode => ⟨d, hd, hcode⟩⟩)

theorem files_update {path : RawPath} (howned : Owns docCode upload path) (content : Option Bytes)
    (other : RawPath) (h : ¬ Owns docCode upload other) :
    Function.update s.files path content other = s.files other :=
  Function.update_of_ne (fun heq : other = path => h (heq ▸ howned)) _ _

theorem noFile_cleanup (h : Alone docCode s upload draft)
    (hfiles : s'.files = Function.update s.files draft.path none) : NoFile docCode s' upload := by
  intro path hpath
  rw [hfiles]
  by_cases heq : path = draft.path
  · rw [heq, Function.update_self]
  · rw [Function.update_of_ne heq]
    exact h.only path hpath heq

/-- A clean-up, or one that has raised; an id may have been drawn before. -/
theorem acted_reject (h : Alone docCode s upload draft) (e : UploadError) (unlinkRaises : Bool)
    (nextDocumentId : Nat) : Acted ports settings docCode s
      ({ s with nextDocumentId := nextDocumentId }.reject upload draft e unlinkRaises) upload := by
  cases unlinkRaises with
  | false => exact acted_of_files rfl (files_update h.owned none) rfl rfl ⟨noFile_cleanup h rfl, h.noRow⟩
  | true =>
    refine acted_of_files rfl (fun _ _ => rfl) rfl rfl ?_
    show PhaseSound ports settings docCode _ upload
      (some (.ended (if (s.files draft.path).isSome = true then _ else _)))
    cases hfile : s.files draft.path with
    | none =>
      refine ⟨fun path hpath => ?_, h.noRow⟩
      by_cases heq : path = draft.path
      · rw [heq]
        exact hfile
      · exact h.only path hpath heq
    | some content => exact ⟨⟨draft.path, content, h.owned, hfile⟩, h.noRow⟩

theorem acted_write {draft' : Draft} {content : Bytes} (h : Alone docCode s upload draft')
    (hcontent : content = draft'.received) (hsize : draft'.totalSize ≤ settings.maxUploadFileSize) :
    Acted ports settings docCode s
      ((s.writeFile draft'.path content).setUpload upload (.reading draft')) upload := by
  refine acted_of_files rfl (files_update h.owned _) rfl rfl ?_
  refine Writing.mk ⟨h.owned, fun path hpath hne => ?_, h.noRow⟩ ?_ hsize
  · exact (Function.update_of_ne hne _ _).trans (h.only path hpath hne)
  · exact (Function.update_self ..).trans (by rw [hcontent])

theorem acted_start {file : UploadFile} {info : UploadMeta} {actorCode : Option String}
    {fault : Option StartFault} {unlinkRaises : Bool}
    (h : PhaseSound ports settings docCode s upload none) :
    Acted ports settings docCode s
      (stepStart ports settings docCode s upload file info actorCode fault unlinkRaises) upload := by
  rw [stepStart]
  cases hvalid : validate ports settings (docCode upload) file info actorCode with
  | error e => exact acted_setUpload h
  | ok draft =>
    obtain ⟨hreceived, howned⟩ := validate_ok hvalid
    have halone : Alone docCode s upload draft := ⟨howned, fun path hpath _ => h.1 path hpath, h.2⟩
    cases fault with
    | none =>
      refine acted_write halone hreceived.symm ?_
      rw [Draft.totalSize, hreceived]
      exact Nat.zero_le _
    | some fault =>
      cases fault with
      | mkdir => exact acted_setUpload h
      | log | openFile => exact acted_reject halone _ unlinkRaises _

theorem acted_abandon (h : Writing settings docCode s upload draft) :
    Acted ports settings docCode s (s.setUpload upload (.ended .abandoned)) upload :=
  acted_setUpload ⟨⟨draft.path, draft.received, h.owned, h.file⟩, h.noRow⟩

theorem acted_read (h : Writing settings docCode s upload draft) (event : ReadEvent)
    (unlinkRaises : Bool) : Acted ports settings docCode s
      (stepRead settings s upload draft unlinkRaises event) upload := by
  cases event with
  | raised => exact acted_reject h.toAlone _ unlinkRaises _
  | cancelled => exact acted_abandon h
  | chunk bytes =>
    cases bytes with
    | nil =>
      simp only [stepRead]
      split
      · exact acted_reject h.toAlone _ unlinkRaises _
      · next hpos => exact acted_setUpload ⟨h, Nat.pos_of_ne_zero hpos⟩
    | cons byte bytes =>
      have halone : Alone docCode s upload
        { draft with received := draft.received ++ byte :: bytes } := ⟨h.owned, h.only, h.noRow⟩
      simp only [stepRead]
      split
      · exact acted_reject halone _ unlinkRaises _
      · next hsize =>
        refine acted_write halone ?_ (Nat.not_lt.mp hsize)
        rw [h.file]
        rfl

theorem acted_save (h : Writing settings docCode s upload draft) (hpos : 0 < draft.totalSize)
    (fault unlinkRaises : Bool) : Acted ports settings docCode s
      (stepSave ports s upload draft fault unlinkRaises) upload := by
  cases fault with
  | true => exact acted_reject h.toAlone _ unlinkRaises _
  | false =>
    simp only [stepSave, h.file]
    exact acted_setUpload ⟨h, hpos, rfl⟩

theorem acted_query {contentHash : String} (h : Writing settings docCode s upload draft)
    (hpos : 0 < draft.totalSize) (hhash : contentHash = ports.sha256 draft.received)
    (fault unlinkRaises : Bool) : Acted ports settings docCode s
      (stepQuery s upload draft contentHash fault unlinkRaises) upload := by
  rw [stepQuery]
  split
  · exact acted_reject h.toAlone _ unlinkRaises _
  · split
    · exact acted_reject h.toAlone _ unlinkRaises _
    · exact acted_setUpload ⟨h, hpos, hhash⟩

theorem createDocument_docCode {documents documents' : Documents} {d : Document}
    (h : createDocument documents d = (.ok (), documents')) :
    documents.insert d = some documents' ∧ ∀ e ∈ documents, e.docCode ≠ d.docCode := by
  rcases createDocument_cases documents d with ⟨e, he⟩ | ⟨inserted, hok, hinsert, -⟩
  · rw [h] at he
    cases he
  · rw [h] at hok
    obtain rfl := (Prod.mk.inj hok).2
    refine ⟨hinsert, fun e he heq => ?_⟩
    unfold createDocument at h
    split_ifs at h with hhash hcode
    · cases h
    · cases h
    · exact hcode ⟨e, he, heq⟩

/-- The row that an upload inserts describes its file. -/
theorem kept_insert {d : Document} (h : Writing settings docCode s upload draft)
    (hpos : 0 < draft.totalSize) (hcode : d.docCode = docCode upload)
    (huri : d.sourceUri = draft.path.render) (hhash : d.contentHash = ports.sha256 draft.received)
    (hrows : ∀ e, e ∈ s'.documents ↔ e ∈ s.documents ∨ e = d)
    (hsize : s'.fileSizes d.id = draft.totalSize) (hfiles : s'.files = s.files) :
    Kept ports settings docCode s' upload draft.path draft.received where
  owned := h.owned
  only other hother hne := by
    rw [hfiles]
    exact h.only other hother hne
  row := ⟨d, (hrows d).mpr (.inr rfl), hcode⟩
  describes e he hecode := by
    rcases (hrows e).mp he with he | rfl
    · exact absurd hecode (h.noRow e he)
    · exact ⟨by rw [hfiles, h.file], huri, hhash, hsize, hpos, h.size⟩

theorem acted_insert {d : Document} {documents : Documents} {phase : UploadPhase}
    (hcode : d.docCode = docCode upload) (hinsert : s.documents.insert d = some documents)
    (huploads : s'.uploads = Function.update s.uploads upload (some phase))
    (hfiles : ∀ path, ¬ Owns docCode upload path → s'.files path = s.files path)
    (hdocuments : s'.documents = documents) {size : Nat}
    (hsizes : s'.fileSizes = Function.update s.fileSizes d.id size)
    (hown : PhaseSound ports settings docCode s' upload (some phase)) :
    Acted ports settings docCode s s' upload where
  uploads other hne := by rw [huploads, Function.update_of_ne hne]
  files := hfiles
  rows e hne := by
    rw [hdocuments, Table.mem_insert hinsert]
    refine ⟨fun he => he.resolve_right ?_, .inl⟩
    rintro rfl
    exact hne hcode
  sizes e he := by
    rw [hsizes, Function.update_of_ne (Table.key_not_mem_of_insert hinsert he)]
  own := by
    rw [huploads, Function.update_self]
    exact hown

theorem acted_register {contentHash : String} (h : Writing settings docCode s upload draft)
    (hpos : 0 < draft.totalSize) (hhash : contentHash = ports.sha256 draft.received) (now : Time)
    (outcome : CommitOutcome) (unlinkRaises : Bool) :
    Acted ports settings docCode s
      (stepRegister settings docCode s upload draft contentHash now outcome unlinkRaises) upload := by
  rw [stepRegister]
  generalize hd : buildDocument settings.toDocumentUploadSettings
    (uploadRequest (docCode upload) draft contentHash) s.nextDocumentId now = d
  have hcode : d.docCode = docCode upload := by rw [← hd]; rfl
  have huri : d.sourceUri = draft.path.render := by rw [← hd]; rfl
  have hdhash : d.contentHash = ports.sha256 draft.received := by rw [← hd, ← hhash]; rfl
  cases hcreate : createDocument s.documents d with
  | mk result documents =>
    cases result with
    | error e =>
      simp only
      exact acted_reject h.toAlone _ unlinkRaises _
    | ok u =>
      obtain ⟨hinsert, -⟩ := createDocument_docCode hcreate
      have hrows : ∀ e, e ∈ documents ↔ e ∈ s.documents ∨ e = d := fun e => Table.mem_insert hinsert
      simp only
      cases outcome with
      | failed => exact acted_reject h.toAlone _ unlinkRaises _
      | answerLost =>
        cases unlinkRaises with
        | false =>
          refine acted_insert hcode hinsert rfl (files_update h.owned none) rfl rfl ⟨?_, d, ?_, hcode⟩
          · exact noFile_cleanup h.toAlone rfl
          · exact (hrows d).mpr (.inr rfl)
        | true =>
          exact acted_insert hcode hinsert rfl (fun _ _ => rfl) rfl rfl ⟨_, _,
            kept_insert h hpos hcode huri hdhash hrows (Function.update_self ..) rfl⟩
      | committed exitRaises =>
        cases exitRaises with
        | false | true =>
          exact acted_insert hcode hinsert rfl (fun _ _ => rfl) rfl rfl ⟨_, _,
            kept_insert h hpos hcode huri hdhash hrows (Function.update_self ..) rfl⟩

/-- The columns that an upload writes and nothing else does. -/
structure SameUpload (d d' : Document) : Prop where
  id : d'.id = d.id
  docCode : d'.docCode = d.docCode
  sourceUri : d'.sourceUri = d.sourceUri
  contentHash : d'.contentHash = d.contentHash

/-- A step of the lifecycle or of the pipeline. -/
theorem framed_of_rewrites (hfiles : s'.files = s.files) (hsizes : s'.fileSizes = s.fileSizes)
    (hrows : Table.Rewrites SameUpload s.documents s'.documents) (upload : Nat) :
    Framed docCode s s' upload where
  files path _ := by rw [hfiles]
  back d' hd' hcode := by
    obtain ⟨d, hd, hsame⟩ := hrows.back hd'
    exact ⟨d, hd, hsame.docCode ▸ hcode, hsame.sourceUri, hsame.contentHash,
      by rw [hsizes, hsame.id]⟩
  forth d hd hcode := by
    obtain ⟨d', hd', hsame⟩ := hrows.forth hd
    exact ⟨d', hd', hsame.docCode.trans hcode⟩

theorem sameUpload_refl (d : Document) : SameUpload d d := ⟨rfl, rfl, rfl, rfl⟩

theorem deactivateDocument_rewrites (documents : Documents) (documentId : Nat)
    (reason : DocumentLifecycleStatus) (replacedBy : Option Nat) (now : Time) :
    Table.Rewrites SameUpload documents
      (deactivateDocument documents documentId reason replacedBy now).2 := by
  rcases deactivateDocument_cases documents documentId reason replacedBy now with
    ⟨e, he⟩ | ⟨d, hd⟩ | ⟨d, hok, hdeactivated⟩
  · rw [he]
    exact .of_eq (fun d _ => sameUpload_refl d) rfl
  · rw [hd]
    exact .of_eq (fun d _ => sameUpload_refl d) rfl
  · rw [hok]
    exact .save (fun d _ => sameUpload_refl d) hdeactivated.mem rfl ⟨rfl, rfl, rfl, rfl⟩

/-- What a step of anyone does. -/
inductive UploadMoves (ports : UploadPorts) (settings : UploadSettings) (docCode : Nat → String)
    (s s' : UploadState) (actor : Option Nat) : Prop
  | acted (upload : Nat) (hactor : actor = some upload) (h : Acted ports settings docCode s s' upload)
  | rewritten (huploads : s'.uploads = s.uploads) (h : ∀ upload, Framed docCode s s' upload)

theorem step_moves {a : UploadAction}
    (hs : ∀ upload, PhaseSound ports settings docCode s upload (s.uploads upload))
    (h : step ports settings docCode s a = some s') :
    UploadMoves ports settings docCode s s' a.upload? := by
  cases a with
  | start upload file info actorCode fault unlinkRaises =>
    have hphase := hs upload
    cases hup : s.uploads upload with
    | some phase => simp [step, hup] at h
    | none =>
      rw [hup] at hphase
      simp only [step, hup] at h
      obtain rfl := Option.some.inj h
      exact .acted upload rfl (acted_start hphase)
  | read upload event unlinkRaises =>
    have hphase := hs upload
    simp only [step] at h
    split at h
    · next draft hup =>
      rw [hup] at hphase
      obtain rfl := Option.some.inj h
      exact .acted upload rfl (acted_read hphase event unlinkRaises)
    · cases h
  | save upload fault unlinkRaises =>
    have hphase := hs upload
    simp only [step] at h
    split at h
    · next draft hup =>
      rw [hup] at hphase
      obtain rfl := Option.some.inj h
      exact .acted upload rfl (acted_save hphase.1 hphase.2 fault unlinkRaises)
    · cases h
  | query upload fault unlinkRaises =>
    have hphase := hs upload
    simp only [step] at h
    split at h
    · next draft contentHash hup =>
      rw [hup] at hphase
      obtain rfl := Option.some.inj h
      exact .acted upload rfl (acted_query hphase.1 hphase.2.1 hphase.2.2 fault unlinkRaises)
    · cases h
  | register upload now outcome unlinkRaises =>
    have hphase := hs upload
    simp only [step] at h
    split at h
    · next draft contentHash hup =>
      rw [hup] at hphase
      obtain rfl := Option.some.inj h
      exact .acted upload rfl
        (acted_register hphase.1 hphase.2.1 hphase.2.2 now outcome unlinkRaises)
    · cases h
  | crash upload =>
    have hphase := hs upload
    simp only [step] at h
    split at h
    · cases h
    · cases h
    · next phase hnot hup =>
      rw [hup] at hphase
      obtain rfl := Option.some.inj h
      refine .acted upload rfl ?_
      cases phase with
      | reading draft => exact acted_abandon hphase
      | written draft => exact acted_abandon hphase.1
      | hashed draft contentHash => exact acted_abandon hphase.1
      | finalizing draft contentHash => exact acted_abandon hphase.1
      | ended ending => exact (hnot ending rfl).elim
  | deactivate documentId reason replacedBy now committed =>
    obtain rfl := Option.some.inj h
    cases committed with
    | false => exact .rewritten rfl fun upload =>
        framed_of_rewrites rfl rfl (.of_eq (fun d _ => sameUpload_refl d) rfl) upload
    | true =>
      have hrows := deactivateDocument_rewrites s.documents documentId reason replacedBy now
      exact .rewritten rfl fun upload => framed_of_rewrites (by rfl) (by rfl) hrows upload
  | work documentId status cleanedUri activeOperationId =>
    obtain ⟨d, hd, rfl⟩ := Option.map_eq_some_iff.mp h
    refine .rewritten rfl fun upload => framed_of_rewrites (by rfl) (by rfl) ?_ upload
    exact .save (fun d _ => sameUpload_refl d) (Table.mem_of_get? hd) rfl ⟨rfl, rfl, rfl, rfl⟩

/-- **What holds of every upload**, in every run. -/
theorem phaseSound_of_reachable (hdistinct : Function.Injective docCode)
    (hs : (machine ports settings docCode).Reachable s) (upload : Nat) :
    PhaseSound ports settings docCode s upload (s.uploads upload) := by
  refine Machine.ReachableVia.invariant
    (P := fun s => ∀ upload, PhaseSound ports settings docCode s upload (s.uploads upload))
    (fun s hinit upload => ?_) (fun s a s' _ ih _ hstep other => ?_) hs upload
  · obtain ⟨hfiles, hrows, huploads⟩ := hinit
    rw [huploads upload]
    refine ⟨fun path _ => hfiles path, fun d hd => ?_⟩
    rw [Table.mem_iff, hrows] at hd
    cases hd
  · cases step_moves ih hstep with
    | acted upload _ hacted =>
      by_cases hne : other = upload
      · subst hne
        exact hacted.own
      · rw [hacted.uploads other hne]
        exact (ih other).frame (hacted.framed hdistinct hne)
    | rewritten huploads hframed =>
      rw [huploads]
      exact (ih other).frame (hframed other)

end Sound

/-! ## All or nothing -/

/-- The file of an upload is there. -/
def FileStored (docCode : Nat → String) (s : UploadState) (upload : Nat) : Prop :=
  ∃ path content, Owns docCode upload path ∧ s.files path = some content

/-- The row of an upload is there. -/
def RowStored (docCode : Nat → String) (s : UploadState) (upload : Nat) : Prop :=
  ∃ d ∈ s.documents, d.docCode = docCode upload

/-- The endings that leave the file. -/
def UploadEnding.keepsFile : UploadEnding → Bool
  | .created _ | .raisedLate _ | .abandoned | .uncleaned _ => true
  | .rejected _ | .answerLost => false

/-- The endings that leave the row. -/
def UploadEnding.keepsRow : UploadEnding → Bool
  | .created _ | .raisedLate _ | .answerLost => true
  | .rejected _ | .abandoned | .uncleaned _ => false

section Ended

variable {ports : UploadPorts} {settings : UploadSettings} {docCode : Nat → String} {s : UploadState}
  {upload : Nat} {ending : UploadEnding}

theorem NoFile.not_stored (h : NoFile docCode s upload) : ¬ FileStored docCode s upload := by
  rintro ⟨path, content, hpath, hstored⟩
  rw [h path hpath] at hstored
  cases hstored

theorem NoRow.not_stored (h : NoRow docCode s upload) : ¬ RowStored docCode s upload :=
  fun ⟨d, hd, hcode⟩ => h d hd hcode

theorem Kept.fileStored {path : RawPath} {content : Bytes}
    (h : Kept ports settings docCode s upload path content) : FileStored docCode s upload := by
  obtain ⟨d, hd, hcode⟩ := h.row
  exact ⟨path, content, h.owned, (h.describes d hd hcode).file⟩

theorem fileStored_iff (h : PhaseSound ports settings docCode s upload (some (.ended ending))) :
    FileStored docCode s upload ↔ ending.keepsFile = true := by
  cases ending with
  | created d | raisedLate d =>
    obtain ⟨path, content, hkept⟩ := h
    exact iff_of_true hkept.fileStored rfl
  | abandoned | uncleaned e => exact iff_of_true h.1 rfl
  | rejected e | answerLost => exact iff_of_false (NoFile.not_stored h.1) Bool.false_ne_true

theorem rowStored_iff (h : PhaseSound ports settings docCode s upload (some (.ended ending))) :
    RowStored docCode s upload ↔ ending.keepsRow = true := by
  cases ending with
  | created d | raisedLate d =>
    obtain ⟨path, content, hkept⟩ := h
    exact iff_of_true hkept.row rfl
  | answerLost => exact iff_of_true h.2 rfl
  | rejected e | abandoned | uncleaned e => exact iff_of_false h.2.not_stored Bool.false_ne_true

/-- A row describes its file, if the file is there. -/
theorem describes_of_ended (h : PhaseSound ports settings docCode s upload (some (.ended ending)))
    (hne : ending ≠ .answerLost) (d : Document) (hd : d ∈ s.documents)
    (hcode : d.docCode = docCode upload) :
    ∃ path content, Owns docCode upload path ∧ Describes ports settings s d path content := by
  cases ending with
  | created _ | raisedLate _ =>
    obtain ⟨path, content, hkept⟩ := h
    exact ⟨path, content, hkept.owned, hkept.describes d hd hcode⟩
  | rejected e | abandoned | uncleaned e => exact absurd hcode (h.2 d hd)
  | answerLost => exact absurd rfl hne

end Ended

/-- **An upload is all or nothing**: when it has ended, its file is there just when its row is, unless it
was abandoned before the commit, could not remove its file, or has lost the answer of the commit; and
its row describes its file. -/
theorem upload_all_or_nothing {ports : UploadPorts} {settings : UploadSettings}
    {docCode : Nat → String} (hdistinct : Function.Injective docCode) {s : UploadState}
    (hs : (machine ports settings docCode).Reachable s) {upload : Nat} {ending : UploadEnding}
    (h : s.uploads upload = some (.ended ending)) :
    ((FileStored docCode s upload ↔ RowStored docCode s upload) ↔
      ending ≠ .abandoned ∧ (∀ e, ending ≠ .uncleaned e) ∧ ending ≠ .answerLost) ∧
    (RowStored docCode s upload ↔
      ending = .answerLost ∨ ∃ d, ending = .created d ∨ ending = .raisedLate d) ∧
    (ending ≠ .answerLost → ∀ d ∈ s.documents, d.docCode = docCode upload →
      ∃ path content, Owns docCode upload path ∧ Describes ports settings s d path content) := by
  have hsound := phaseSound_of_reachable hdistinct hs upload
  rw [h] at hsound
  refine ⟨?_, ?_, describes_of_ended hsound⟩
  · rw [fileStored_iff hsound, rowStored_iff hsound]
    cases ending <;> simp [UploadEnding.keepsFile, UploadEnding.keepsRow]
  · rw [rowStored_iff hsound]
    cases ending <;> simp [UploadEnding.keepsRow]

/-! ## An upload -/

def samplePorts : UploadPorts where
  pyLower := lower
  allowedContentTypes := ["text/plain"]
  sha256 content := String.ofList (content.map fun byte => Char.ofNat byte.toNat)

def sampleSettings : UploadSettings where
  defaultDocumentVersion := 1
  defaultDocumentStatus := .uploaded
  maxUploadFileSize := 4
  rawExternalStorageDir := "raw/external"
  rawLocalStorageDir := "raw/local"
  defaultCreatedByActorCode := "system"

def sampleDocCode (upload : Nat) : String := String.ofList (List.replicate upload 'A')

theorem sampleDocCode_injective : Function.Injective sampleDocCode := by
  intro i j h
  have := congrArg (fun t => t.toList.length) h
  simpa [sampleDocCode] using this

def emptyUploads : UploadState := ⟨fun _ => none, ⟨[], List.nodup_nil⟩, fun _ => 0, 1, fun _ => none⟩

theorem emptyUploads_init {ports : UploadPorts} {settings : UploadSettings} {docCode : Nat → String} :
    (machine ports settings docCode).init emptyUploads := ⟨fun _ => rfl, rfl, fun _ => rfl⟩

/-- The first upload ends with its row.  Beside it, the second one is too large; the third one fails,
and its file cannot be removed. -/
def sampleUploads : List UploadAction :=
  [.start 0 ⟨some "a.TXT", "text/plain"⟩ ⟨1, "law", none, "a", none, none⟩ none none false,
    .start 1 ⟨some "b.txt", "text/plain"⟩ ⟨1, "law", none, "b", none, none⟩ none none false,
    .read 0 (.chunk [72]) false, .read 1 (.chunk [72, 101, 108]) false,
    .start 2 ⟨some "c.txt", "text/plain"⟩ ⟨1, "law", none, "c", none, none⟩ none none false,
    .read 0 (.chunk [105]) false, .read 1 (.chunk [108, 111]) false, .read 0 (.chunk []) false,
    .save 0 false false, .read 2 .raised true, .query 0 false false,
    .register 0 0 (.committed false) false]

theorem sampleUploads_end : ∃ s d e,
    (machine samplePorts sampleSettings sampleDocCode).run emptyUploads sampleUploads = some s ∧
      s.uploads 0 = some (.ended (.created d)) ∧ s.uploads 1 = some (.ended (.rejected e)) ∧
      ∃ e', s.uploads 2 = some (.ended (.uncleaned e')) := ⟨_, _, _, rfl, rfl, rfl, _, rfl⟩

theorem upload_all_or_nothing_sample :
    ∃ s, (machine samplePorts sampleSettings sampleDocCode).Reachable s ∧
      (FileStored sampleDocCode s 0 ∧ RowStored sampleDocCode s 0) ∧
      (¬ FileStored sampleDocCode s 1 ∧ ¬ RowStored sampleDocCode s 1) ∧
      FileStored sampleDocCode s 2 ∧ ¬ RowStored sampleDocCode s 2 := by
  obtain ⟨s, d, e, hrun, hcreated, hrejected, e', huncleaned⟩ := sampleUploads_end
  have hs : (machine samplePorts sampleSettings sampleDocCode).Reachable s :=
    Machine.Reachable.run (.init emptyUploads_init) hrun
  obtain ⟨hagree, hrow, -⟩ := upload_all_or_nothing sampleDocCode_injective hs hcreated
  obtain ⟨hagree₁, hrow₁, -⟩ := upload_all_or_nothing sampleDocCode_injective hs hrejected
  obtain ⟨hagree₂, hrow₂, -⟩ := upload_all_or_nothing sampleDocCode_injective hs huncleaned
  have hstored := hrow.mpr (.inr ⟨d, .inl rfl⟩)
  have hnone₁ : ¬ RowStored sampleDocCode s 1 := by
    rw [hrow₁]
    rintro (h | ⟨d, h | h⟩) <;> cases h
  have hnone₂ : ¬ RowStored sampleDocCode s 2 := by
    rw [hrow₂]
    rintro (h | ⟨d, h | h⟩) <;> cases h
  refine ⟨s, hs, ⟨(hagree.mpr ⟨nofun, nofun, nofun⟩).mpr hstored, hstored⟩, ⟨?_, hnone₁⟩, ?_, hnone₂⟩
  · exact mt (hagree₁.mpr ⟨nofun, nofun, nofun⟩).mp hnone₁
  · by_contra hnofile
    exact (hagree₂.mp (iff_of_false hnofile hnone₂)).2.1 e' rfl

end DocFlow.Upload
