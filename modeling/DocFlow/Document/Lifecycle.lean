import DocFlow.Document.Ownership
import DocFlow.Lib.Links
import DocFlow.Lib.Machine
import DocFlow.Lib.Table
import Mathlib.Logic.Function.Basic

/-!
# The lifecycle of the documents

Uploads register documents, and `change_lifecycle.py` takes them out of use.  The documents of all
knowledge bases are one table with two further unique keys, `doc_code` and
`(kb_id, active_content_hash)`.  An upload first looks for an active document with its hash, without
a lock, and inserts later; a lifecycle change reads and writes under row locks, in one step.
-/

namespace DocFlow.Pipeline

abbrev Documents := Table Document.id

/-! ## Uploading -/

structure DocumentUploadSettings where
  defaultDocumentVersion : Nat
  defaultDocumentStatus : DocumentStatus

/-- What the upload knows when it comes to the database. -/
structure UploadRequest where
  docCode : String
  kbId : Nat
  domainCode : String
  businessScene : Option String
  title : String
  originalFilename : String
  sourceType : String
  sourceUri : String
  contentHash : String
  effectiveAt : Option Time
  expiredAt : Option Time
  actorCode : String
deriving DecidableEq, Repr

def getInitialLifecycleStatus (effectiveAt : Option Time) (now : Time) : DocumentLifecycleStatus :=
  match effectiveAt with
  | none => .active
  | some t => if now < t then .scheduled else .active

/-- `documents.get_active_by_hash_in_kb`. -/
def getActiveByHashInKb (documents : Documents) (kbId : Nat) (contentHash : String) :
    Option Document :=
  documents.rows.find? fun d => d.kbId = kbId ∧ d.activeContentHash = some contentHash

/-- `documents.create`, with the unique keys of the table. -/
def createDocument (documents : Documents) (document : Document) :
    Except StageError Unit × Documents :=
  if ∃ d ∈ documents.rows, d.kbId = document.kbId ∧ document.activeContentHash ≠ none ∧
      d.activeContentHash = document.activeContentHash then
    (.error (.application ⟨409, "该知识库中已存在相同有效文件"⟩), documents)
  else if ∃ d ∈ documents.rows, d.docCode = document.docCode then
    (.error (.runtime "Duplicate entry"), documents)
  else
    match documents.insert document with
    | none => (.error (.runtime "Duplicate entry"), documents)
    | some documents => (.ok (), documents)

def buildDocument (settings : DocumentUploadSettings) (request : UploadRequest) (id : Nat)
    (now : Time) : Document :=
  { id := id
    docCode := request.docCode
    kbId := request.kbId
    domainCode := request.domainCode
    businessScene := request.businessScene
    title := request.title
    sourceType := request.sourceType
    sourceUri := request.sourceUri
    cleanedUri := none
    contentHash := request.contentHash
    activeContentHash := some request.contentHash
    lifecycleStatus := getInitialLifecycleStatus request.effectiveAt now
    storageStatus := .active
    version := settings.defaultDocumentVersion
    status := settings.defaultDocumentStatus
    activeOperationId := none
    replacedBy := none
    effectiveAt := request.effectiveAt
    expiredAt := request.expiredAt
    createdByActorCode := some request.actorCode
    originalFilename := some request.originalFilename }

/-- The end of an upload: what the query for the hash has answered, then the insertion. -/
def registerUpload (settings : DocumentUploadSettings) (request : UploadRequest)
    (duplicated : Option Document) (id : Nat) (now : Time) (documents : Documents) :
    Except StageError Document × Documents :=
  match duplicated with
  | some d => (.error (.application ⟨409, "已存在相同有效文件: " ++ d.docCode⟩), documents)
  | none =>
    let document := buildDocument settings request id now
    match createDocument documents document with
    | (.error e, documents) => (.error e, documents)
    | (.ok _, documents) => (.ok document, documents)

/-! ## Taking out of use -/

def deactivationReasons : List DocumentLifecycleStatus := [.expired, .replaced, .deleted]

def inactiveLifecycleStatuses : List DocumentLifecycleStatus := deactivationReasons

def activeLifecycleStatuses : List DocumentLifecycleStatus := [.active, .scheduled]

/-- `_validate_replacement`. -/
def validateReplacement (document replacement : Document) (now : Time) : Except StageError Unit :=
  if replacement.id = document.id then .error (.application ⟨400, "文档不能替代自身"⟩)
  else if replacement.kbId ≠ document.kbId then
    .error (.application ⟨409, "替代文档必须属于同一知识库"⟩)
  else if replacement.status ≠ .indexed then .error (.application ⟨409, "替代文档尚未完成索引"⟩)
  else if replacement.lifecycleStatus ≠ .active then
    .error (.application ⟨409, "替代文档不是业务有效文档"⟩)
  else if replacement.storageStatus ≠ .active then
    .error (.application ⟨409, "替代文档不在活跃存储区"⟩)
  else if ∃ t ∈ replacement.effectiveAt, now < t then
    .error (.application ⟨409, "替代文档尚未生效"⟩)
  else if ∃ t ∈ replacement.expiredAt, t ≤ now then
    .error (.application ⟨409, "替代文档已经到期"⟩)
  else .ok ()

/-- The checks of a replacement: it is named, another document, there, and fit. -/
def checkReplacement (document : Document) (replacedBy : Option Nat) (replacement : Option Document)
    (now : Time) : Except StageError Unit :=
  match replacedBy with
  | none => .error (.application ⟨400, "替代操作必须指定新文档"⟩)
  | some replacedBy =>
    if replacedBy = document.id then .error (.application ⟨400, "文档不能替代自身"⟩)
    else
      match replacement with
      | none => .error (.application ⟨404, "替代文档不存在"⟩)
      | some replacement => validateReplacement document replacement now

/-- `documents.deactivate`. -/
def Document.deactivate (document : Document) (lifecycleStatus : DocumentLifecycleStatus)
    (replacedBy : Option Nat) : Document :=
  { document with
    lifecycleStatus := lifecycleStatus
    activeContentHash := none
    storageStatus := .archiving
    replacedBy := if lifecycleStatus = .replaced then replacedBy else document.replacedBy }

/-- The document and its replacement, as the transaction locks them. -/
def lockDocuments (documents : Documents) (documentId : Nat) (reason : DocumentLifecycleStatus)
    (replacedBy : Option Nat) : Option Document × Option Document :=
  if reason = .replaced ∧ replacedBy ≠ none ∧ replacedBy ≠ some documentId then
    (documents.get? documentId, replacedBy.bind documents.get?)
  else (documents.get? documentId, none)

/-- What the reason asks for. -/
def checkReason (document : Document) (reason : DocumentLifecycleStatus) (replacedBy : Option Nat)
    (replacement : Option Document) (now : Time) : Except StageError Unit :=
  if reason = .replaced then checkReplacement document replacedBy replacement now else .ok ()

/-- `_deactivate_document`, once the document is locked. -/
def deactivateLocked (documents : Documents) (document : Document) (replacement : Option Document)
    (reason : DocumentLifecycleStatus) (replacedBy : Option Nat) (now : Time) :
    Except StageError Document × Documents :=
  if document.lifecycleStatus = reason then
    if reason = .replaced ∧ document.replacedBy ≠ replacedBy then
      (.error (.application ⟨409, "文档已经被其他文档替代"⟩), documents)
    else (.ok document, documents)
  else if document.lifecycleStatus ∈ inactiveLifecycleStatuses then
    (.error (.application ⟨409, "文档已经失效: " ++ document.lifecycleStatus.value⟩), documents)
  else if document.lifecycleStatus ∉ activeLifecycleStatuses then
    (.error (.application ⟨409, "文档生命周期状态无效: " ++ document.lifecycleStatus.value⟩), documents)
  else
    match checkReason document reason replacedBy replacement now with
    | .error e => (.error e, documents)
    | .ok _ =>
      let updated := document.deactivate reason replacedBy
      (.ok updated, documents.save updated)

/-- `_deactivate_document`. -/
def deactivateDocument (documents : Documents) (documentId : Nat)
    (reason : DocumentLifecycleStatus) (replacedBy : Option Nat) (now : Time) :
    Except StageError Document × Documents :=
  if reason ∉ deactivationReasons then (.error (.runtime "不支持的失效原因"), documents)
  else
    match lockDocuments documents documentId reason replacedBy with
    | (none, _) => (.error (.application ⟨404, "文档不存在"⟩), documents)
    | (some document, replacement) =>
      deactivateLocked documents document replacement reason replacedBy now

/-! ## The documents over time -/

structure Registry where
  documents : Documents
  nextDocumentId : Nat
  /-- the uploads between their query and their insertion, with what the query answered -/
  uploads : Nat → Option (UploadRequest × Option Document)

inductive LifecycleAction
  | query (upload : Nat) (request : UploadRequest)
  | register (upload : Nat) (now : Time) (committed : Bool)
  | deactivate (documentId : Nat) (reason : DocumentLifecycleStatus) (replacedBy : Option Nat)
      (now : Time) (committed : Bool)
  /-- a transaction of the pipeline -/
  | work (documentId : Nat) (status : DocumentStatus) (cleanedUri : Option FilePath)
      (activeOperationId : Option String)

namespace Registry

/-- The table after a transaction that fails at its commit, or does not. -/
def commit {α : Type} (s : Registry) (committed : Bool) (result : Except StageError α × Documents) :
    Registry :=
  if committed = true then { s with documents := result.2 } else s

def step (settings : DocumentUploadSettings) (s : Registry) : LifecycleAction → Option Registry
  | .query upload request =>
    some
      { s with
        uploads := Function.update s.uploads upload
          (some (request, getActiveByHashInKb s.documents request.kbId request.contentHash)) }
  | .register upload now committed =>
    (s.uploads upload).map fun (request, duplicated) =>
      { s with
        nextDocumentId := s.nextDocumentId + 1
        uploads := Function.update s.uploads upload none }.commit committed
          (registerUpload settings request duplicated s.nextDocumentId now s.documents)
  | .deactivate documentId reason replacedBy now committed =>
    some (s.commit committed (deactivateDocument s.documents documentId reason replacedBy now))
  | .work documentId status cleanedUri activeOperationId =>
    (s.documents.get? documentId).map fun document =>
      { s with
        documents := s.documents.save
          { document with
            status := status
            cleanedUri := cleanedUri
            activeOperationId := activeOperationId } }

def machine (settings : DocumentUploadSettings) : Machine Registry LifecycleAction :=
  ⟨fun s => s.documents.rows = [], step settings⟩

end Registry

/-! ## What a step does -/

section Step

variable {documents : Documents}

theorem getInitialLifecycleStatus_mem (effectiveAt : Option Time) (now : Time) :
    getInitialLifecycleStatus effectiveAt now ∈ activeLifecycleStatuses := by
  unfold getInitialLifecycleStatus
  cases effectiveAt with
  | none => exact List.mem_cons_self ..
  | some t =>
    dsimp only
    split <;> decide

/-- The guards a new row has passed. -/
structure Registered (documents : Documents) (d : Document) : Prop where
  hash : ∀ e ∈ documents, e.kbId = d.kbId → d.activeContentHash ≠ none →
    e.activeContentHash ≠ d.activeContentHash
  lifecycle : d.lifecycleStatus ∈ activeLifecycleStatuses
  replacedBy : d.replacedBy = none

/-- The guards a deactivation has passed. -/
structure Deactivated (documents : Documents) (d : Document) (reason : DocumentLifecycleStatus)
    (replacedBy : Option Nat) : Prop where
  mem : d ∈ documents
  lifecycle : d.lifecycleStatus ∈ activeLifecycleStatuses
  reason_mem : reason ∈ deactivationReasons
  replacement : reason = .replaced → ∃ e ∈ documents, replacedBy = some e.id ∧ e.id ≠ d.id ∧
    e.kbId = d.kbId ∧ e.lifecycleStatus = .active

theorem createDocument_cases (documents : Documents) (d : Document) :
    (∃ e, createDocument documents d = (.error e, documents)) ∨
      ∃ documents', createDocument documents d = (.ok (), documents') ∧
        documents.insert d = some documents' ∧
        ∀ e ∈ documents, e.kbId = d.kbId → d.activeContentHash ≠ none →
          e.activeContentHash ≠ d.activeContentHash := by
  unfold createDocument
  split_ifs with hhash hcode
  · exact .inl ⟨_, rfl⟩
  · exact .inl ⟨_, rfl⟩
  · cases hinsert : documents.insert d with
    | none => exact .inl ⟨_, rfl⟩
    | some documents' =>
      refine .inr ⟨documents', rfl, rfl, ?_⟩
      intro e he hkb hsome hsame
      exact hhash ⟨e, he, hkb, hsome, hsame⟩

theorem registerUpload_cases (settings : DocumentUploadSettings) (request : UploadRequest)
    (duplicated : Option Document) (id : Nat) (now : Time) (documents : Documents) :
    (∃ e, registerUpload settings request duplicated id now documents = (.error e, documents)) ∨
      ∃ d documents', registerUpload settings request duplicated id now documents =
        (.ok d, documents') ∧ documents.insert d = some documents' ∧ Registered documents d := by
  unfold registerUpload
  cases duplicated with
  | some d => exact .inl ⟨_, rfl⟩
  | none =>
    dsimp only
    rcases createDocument_cases documents (buildDocument settings request id now) with
      ⟨e, he⟩ | ⟨documents', hok, hinsert, hhash⟩
    · rw [he]
      exact .inl ⟨e, rfl⟩
    · rw [hok]
      exact .inr ⟨_, documents', rfl, hinsert, hhash, getInitialLifecycleStatus_mem .., rfl⟩

theorem validateReplacement_eq_ok {document replacement : Document} {now : Time}
    (h : validateReplacement document replacement now = .ok ()) :
    replacement.id ≠ document.id ∧ replacement.kbId = document.kbId ∧
      replacement.lifecycleStatus = .active := by
  unfold validateReplacement at h
  split_ifs at h with h₁ h₂ h₃ h₄
  exact ⟨h₁, not_not.mp h₂, not_not.mp h₄⟩

/-- A replacement that passes the checks is a row of the table. -/
theorem checkReplacement_eq_ok {documentId : Nat} {replacedBy : Option Nat} {document : Document}
    {replacement : Option Document} {now : Time}
    (hlock : lockDocuments documents documentId .replaced replacedBy = (some document, replacement))
    (h : checkReplacement document replacedBy replacement now = .ok ()) :
    ∃ e ∈ documents, replacedBy = some e.id ∧ e.id ≠ document.id ∧ e.kbId = document.kbId ∧
      e.lifecycleStatus = .active := by
  unfold checkReplacement at h
  cases replacedBy with
  | none => cases h
  | some r =>
    dsimp only at h
    split_ifs at h with hself
    cases replacement with
    | none => cases h
    | some e =>
      obtain ⟨hne, hkb, hactive⟩ := validateReplacement_eq_ok h
      unfold lockDocuments at hlock
      split_ifs at hlock with hboth
      · have hget : documents.get? r = some e := (Prod.mk.inj hlock).2
        obtain ⟨he, hid⟩ := Table.get?_eq_some.mp hget
        exact ⟨e, he, by rw [hid], hne, hkb, hactive⟩
      · cases (Prod.mk.inj hlock).2

theorem mem_of_lockDocuments {documentId : Nat} {reason : DocumentLifecycleStatus}
    {replacedBy : Option Nat} {document : Document} {replacement : Option Document}
    (h : lockDocuments documents documentId reason replacedBy = (some document, replacement)) :
    document ∈ documents := by
  unfold lockDocuments at h
  split_ifs at h
  · exact Table.mem_of_get? (Prod.mk.inj h).1
  · exact Table.mem_of_get? (Prod.mk.inj h).1

theorem deactivateLocked_cases {documentId : Nat} {d : Document} {replacement : Option Document}
    {reason : DocumentLifecycleStatus} {replacedBy : Option Nat} (now : Time)
    (hreason : reason ∈ deactivationReasons)
    (hlock : lockDocuments documents documentId reason replacedBy = (some d, replacement)) :
    (∃ e, deactivateLocked documents d replacement reason replacedBy now = (.error e, documents)) ∨
    deactivateLocked documents d replacement reason replacedBy now = (.ok d, documents) ∨
    deactivateLocked documents d replacement reason replacedBy now =
        (.ok (d.deactivate reason replacedBy), documents.save (d.deactivate reason replacedBy)) ∧
      Deactivated documents d reason replacedBy := by
  unfold deactivateLocked
  by_cases hsame : d.lifecycleStatus = reason
  · rw [if_pos hsame]
    split_ifs with hother
    · exact .inl ⟨_, rfl⟩
    · exact .inr (.inl rfl)
  rw [if_neg hsame]
  by_cases hinactive : d.lifecycleStatus ∈ inactiveLifecycleStatuses
  · rw [if_pos hinactive]
    exact .inl ⟨_, rfl⟩
  rw [if_neg hinactive]
  by_cases hactive : d.lifecycleStatus ∈ activeLifecycleStatuses
  · rw [if_neg (not_not.mpr hactive)]
    cases hcheck : checkReason d reason replacedBy replacement now with
    | error e => exact .inl ⟨e, rfl⟩
    | ok u =>
      refine .inr (.inr ⟨rfl, mem_of_lockDocuments hlock, hactive, hreason, ?_⟩)
      rintro rfl
      rw [checkReason, if_pos rfl] at hcheck
      exact checkReplacement_eq_ok hlock hcheck
  · rw [if_pos hactive]
    exact .inl ⟨_, rfl⟩

theorem deactivateDocument_cases (documents : Documents) (documentId : Nat)
    (reason : DocumentLifecycleStatus) (replacedBy : Option Nat) (now : Time) :
    (∃ e, deactivateDocument documents documentId reason replacedBy now = (.error e, documents)) ∨
    (∃ d, deactivateDocument documents documentId reason replacedBy now = (.ok d, documents)) ∨
    ∃ d, deactivateDocument documents documentId reason replacedBy now =
        (.ok (d.deactivate reason replacedBy), documents.save (d.deactivate reason replacedBy)) ∧
      Deactivated documents d reason replacedBy := by
  unfold deactivateDocument
  by_cases hreason : reason ∈ deactivationReasons
  · rw [if_neg (not_not.mpr hreason)]
    cases hlock : lockDocuments documents documentId reason replacedBy with
    | mk locked replacement =>
      cases locked with
      | none => exact .inl ⟨_, rfl⟩
      | some d =>
        rcases deactivateLocked_cases now hreason hlock with ⟨e, he⟩ | hsame | ⟨hok, hd⟩
        · exact .inl ⟨e, he⟩
        · exact .inr (.inl ⟨d, hsame⟩)
        · exact .inr (.inr ⟨d, hok, hd⟩)
  · rw [if_pos hreason]
    exact .inl ⟨_, rfl⟩

/-- What a step does to the documents. -/
inductive DocumentsMoved (documents documents' : Documents) : Prop
  | kept (h : documents' = documents)
  | registered {d : Document} (hr : Registered documents d)
      (h : documents.insert d = some documents')
  | deactivated {d : Document} {reason : DocumentLifecycleStatus} {replacedBy : Option Nat}
      (hd : Deactivated documents d reason replacedBy)
      (h : documents' = documents.save (d.deactivate reason replacedBy))
  | worked {d : Document} {status : DocumentStatus} {cleanedUri : Option FilePath}
      {activeOperationId : Option String} (hd : d ∈ documents)
      (h : documents' = documents.save
        { d with status := status, cleanedUri := cleanedUri, activeOperationId := activeOperationId })

theorem registerUpload_moved (settings : DocumentUploadSettings) (request : UploadRequest)
    (duplicated : Option Document) (id : Nat) (now : Time) (documents : Documents) :
    DocumentsMoved documents
      (registerUpload settings request duplicated id now documents).2 := by
  rcases registerUpload_cases settings request duplicated id now documents with
    ⟨e, he⟩ | ⟨d, documents', hok, hinsert, hregistered⟩
  · rw [he]
    exact .kept rfl
  · rw [hok]
    exact .registered hregistered hinsert

theorem deactivateDocument_moved (documents : Documents) (documentId : Nat)
    (reason : DocumentLifecycleStatus) (replacedBy : Option Nat) (now : Time) :
    DocumentsMoved documents (deactivateDocument documents documentId reason replacedBy now).2 := by
  rcases deactivateDocument_cases documents documentId reason replacedBy now with
    ⟨e, he⟩ | ⟨d, hd⟩ | ⟨d, hok, hdeactivated⟩
  · rw [he]
    exact .kept rfl
  · rw [hd]
    exact .kept rfl
  · rw [hok]
    exact .deactivated hdeactivated rfl

theorem DocumentsMoved.commit {α : Type} {s : Registry} {committed : Bool}
    {result : Except StageError α × Documents} (hs : s.documents = documents)
    (h : DocumentsMoved documents result.2) :
    DocumentsMoved documents (s.commit committed result).documents := by
  unfold Registry.commit
  split
  · exact h
  · exact .kept hs

theorem Registry.step_moved {settings : DocumentUploadSettings} {s s' : Registry}
    {act : LifecycleAction} (h : step settings s act = some s') :
    DocumentsMoved s.documents s'.documents := by
  cases act with
  | query upload request =>
    obtain rfl := Option.some.inj h
    exact .kept rfl
  | register upload now committed =>
    obtain ⟨⟨request, duplicated⟩, -, rfl⟩ := Option.map_eq_some_iff.mp h
    refine DocumentsMoved.commit (by rfl) ?_
    exact registerUpload_moved settings request duplicated s.nextDocumentId now s.documents
  | deactivate documentId reason replacedBy now committed =>
    obtain rfl := Option.some.inj h
    refine DocumentsMoved.commit (by rfl) ?_
    exact deactivateDocument_moved s.documents documentId reason replacedBy now
  | work documentId status cleanedUri activeOperationId =>
    obtain ⟨d, hd, rfl⟩ := Option.map_eq_some_iff.mp h
    exact .worked (Table.mem_of_get? hd) rfl

end Step

/-! ## The invariant -/

namespace Registry

/-- The first document has been replaced by the second. -/
def ReplacedBy (documents : Documents) (a b : Nat) : Prop :=
  ∃ d ∈ documents, d.id = a ∧ d.replacedBy = some b

/-- **What holds of the documents at any time.** -/
structure Consistent (documents : Documents) : Prop where
  hash : ∀ d ∈ documents, ∀ e ∈ documents, d.kbId = e.kbId → d.activeContentHash ≠ none →
    d.activeContentHash = e.activeContentHash → d = e
  inactive : ∀ d ∈ documents, d.lifecycleStatus ∈ inactiveLifecycleStatuses →
    d.activeContentHash = none
  replacedBy : ∀ d ∈ documents, ∀ r ∈ d.replacedBy, d.lifecycleStatus = .replaced ∧
    ∃ e ∈ documents, e.id = r ∧ e.kbId = d.kbId
  acyclic : Acyclic (ReplacedBy documents)

section Preservation

variable {documents documents' : Documents}

theorem not_inactive_of_active {status : DocumentLifecycleStatus}
    (h : status ∈ activeLifecycleStatuses) : status ∉ inactiveLifecycleStatuses := by
  revert h
  cases status <;> decide

theorem Consistent.empty (h : documents.rows = []) : Consistent documents := by
  have hnone : ∀ d, ¬ d ∈ documents := by
    intro d hd
    rw [Table.mem_iff, h] at hd
    cases hd
  refine ⟨fun d hd => absurd hd (hnone d), fun d hd => absurd hd (hnone d),
    fun d hd => absurd hd (hnone d), .of_empty ?_⟩
  rintro a b ⟨d, hd, -⟩
  exact hnone d hd

/-- A document in use has not been replaced. -/
theorem Consistent.not_replaced (hC : Consistent documents) {d : Document} (hd : d ∈ documents)
    (hactive : d.lifecycleStatus ∈ activeLifecycleStatuses) : d.replacedBy = none := by
  cases hr : d.replacedBy with
  | none => rfl
  | some r =>
    have hreplaced := (hC.replacedBy d hd r hr).1
    rw [hreplaced] at hactive
    exact absurd hactive (by decide)

theorem Consistent.registered (hC : Consistent documents) {d : Document}
    (hr : Registered documents d) (h : documents.insert d = some documents') :
    Consistent documents' := by
  have hmem : ∀ {e}, e ∈ documents' ↔ e ∈ documents ∨ e = d := Table.mem_insert h
  refine ⟨?_, ?_, ?_, hC.acyclic.mono ?_⟩
  · intro a ha b hb hkb hsome hsame
    rcases hmem.mp ha with ha | rfl
    · rcases hmem.mp hb with hb | rfl
      · exact hC.hash a ha b hb hkb hsome hsame
      · exact absurd hsame (hr.hash a ha hkb (hsame ▸ hsome))
    · rcases hmem.mp hb with hb | rfl
      · exact absurd hsame.symm (hr.hash b hb hkb.symm hsome)
      · rfl
  · intro a ha hinactive
    rcases hmem.mp ha with ha | rfl
    · exact hC.inactive a ha hinactive
    · exact absurd hinactive (not_inactive_of_active hr.lifecycle)
  · intro a ha r hrep
    rcases hmem.mp ha with ha | rfl
    · obtain ⟨hreplaced, e, he, hid⟩ := hC.replacedBy a ha r hrep
      exact ⟨hreplaced, e, hmem.mpr (.inl he), hid⟩
    · rw [hr.replacedBy] at hrep
      cases hrep
  · rintro a b ⟨e, he, hid, hrep⟩
    rcases hmem.mp he with he | rfl
    · exact ⟨e, he, hid, hrep⟩
    · rw [hr.replacedBy] at hrep
      cases hrep

/-- A row rewritten under its key, with the columns the invariant reads unchanged. -/
theorem Consistent.rewritten (hC : Consistent documents) {d d' : Document} (hd : d ∈ documents)
    (hid : d'.id = d.id) (hkb : d'.kbId = d.kbId)
    (hhash : d'.activeContentHash = d.activeContentHash)
    (hlifecycle : d'.lifecycleStatus = d.lifecycleStatus) (hrep : d'.replacedBy = d.replacedBy)
    (h : documents' = documents.save d') : Consistent documents' := by
  -- every row stands for a row of before
  have hback : ∀ e' ∈ documents', ∃ e ∈ documents, e'.id = e.id ∧ e'.kbId = e.kbId ∧
      e'.activeContentHash = e.activeContentHash ∧ e'.lifecycleStatus = e.lifecycleStatus ∧
      e'.replacedBy = e.replacedBy := by
    intro e' he'
    rw [h, Table.mem_save_of_mem hd hid] at he'
    rcases he' with rfl | ⟨he', -⟩
    · exact ⟨d, hd, hid, hkb, hhash, hlifecycle, hrep⟩
    · exact ⟨e', he', rfl, rfl, rfl, rfl, rfl⟩
  have hforth : ∀ e ∈ documents, ∃ e' ∈ documents', e'.id = e.id ∧ e'.kbId = e.kbId := by
    intro e he
    by_cases hed : e = d
    · subst hed
      exact ⟨d', h ▸ (Table.mem_save_of_mem hd hid).mpr (.inl rfl), hid, hkb⟩
    · exact ⟨e, h ▸ (Table.mem_save_of_mem hd hid).mpr (.inr ⟨he, hed⟩), rfl, rfl⟩
  refine ⟨?_, ?_, ?_, hC.acyclic.mono ?_⟩
  · intro a' ha' b' hb' hkb' hsome hsame
    obtain ⟨a, ha, haid, hakb, hahash, -, -⟩ := hback a' ha'
    obtain ⟨b, hb, hbid, hbkb, hbhash, -, -⟩ := hback b' hb'
    have hab : a = b := by
      refine hC.hash a ha b hb ?_ ?_ ?_
      · rw [← hakb, ← hbkb, hkb']
      · rw [← hahash]
        exact hsome
      · rw [← hahash, ← hbhash, hsame]
    exact Table.eq_of_key ha' hb' (by rw [haid, hbid, hab])
  · intro a' ha' hinactive
    obtain ⟨a, ha, -, -, hahash, halife, -⟩ := hback a' ha'
    rw [hahash]
    exact hC.inactive a ha (halife ▸ hinactive)
  · intro a' ha' r hr
    obtain ⟨a, ha, -, hakb, -, halife, harep⟩ := hback a' ha'
    obtain ⟨hreplaced, e, he, heid, hekb⟩ := hC.replacedBy a ha r (harep ▸ hr)
    obtain ⟨e', he', heid', hekb'⟩ := hforth e he
    refine ⟨halife.trans hreplaced, e', he', heid'.trans heid, ?_⟩
    rw [hekb', hekb, hakb]
  · rintro a b ⟨e', he', hid', hrep'⟩
    obtain ⟨e, he, heid, -, -, -, herep⟩ := hback e' he'
    exact ⟨e, he, heid.symm.trans hid', herep.symm.trans hrep'⟩

theorem Consistent.deactivated (hC : Consistent documents) {d : Document}
    {reason : DocumentLifecycleStatus} {replacedBy : Option Nat}
    (hd : Deactivated documents d reason replacedBy)
    (h : documents' = documents.save (d.deactivate reason replacedBy)) : Consistent documents' := by
  have hmem : ∀ {e}, e ∈ documents' ↔
      e = d.deactivate reason replacedBy ∨ e ∈ documents ∧ e ≠ d := by
    intro e
    rw [h]
    exact Table.mem_save_of_mem hd.mem rfl
  have hold := hC.not_replaced hd.mem hd.lifecycle
  have hforth : ∀ e ∈ documents, ∃ e' ∈ documents', e'.id = e.id ∧ e'.kbId = e.kbId := by
    intro e he
    by_cases hed : e = d
    · subst hed
      exact ⟨_, hmem.mpr (.inl rfl), rfl, rfl⟩
    · exact ⟨e, hmem.mpr (.inr ⟨he, hed⟩), rfl, rfl⟩
  -- the link the deactivation writes
  have hlink : ∀ r, (d.deactivate reason replacedBy).replacedBy = some r → reason = .replaced ∧
      ∃ e ∈ documents, e.id = r ∧ e.id ≠ d.id ∧ e.kbId = d.kbId ∧ e.lifecycleStatus = .active := by
    intro r hr
    by_cases hreason : reason = .replaced
    · have hnew : (d.deactivate reason replacedBy).replacedBy = replacedBy := if_pos hreason
      obtain ⟨e, he, hsame, hne, hkb, hactive⟩ := hd.replacement hreason
      rw [hnew, hsame] at hr
      exact ⟨hreason, e, he, Option.some.inj hr, hne, hkb, hactive⟩
    · have hkept : (d.deactivate reason replacedBy).replacedBy = d.replacedBy := if_neg hreason
      rw [hkept, hold] at hr
      cases hr
  refine ⟨?_, ?_, ?_, ?_⟩
  · intro a ha b hb hkb hsome hsame
    rcases hmem.mp ha with rfl | ⟨ha, -⟩
    · exact absurd rfl hsome
    · rcases hmem.mp hb with rfl | ⟨hb, -⟩
      · exact absurd hsame hsome
      · exact hC.hash a ha b hb hkb hsome hsame
  · intro a ha hinactive
    rcases hmem.mp ha with rfl | ⟨ha, -⟩
    · rfl
    · exact hC.inactive a ha hinactive
  · intro a ha r hr
    rcases hmem.mp ha with rfl | ⟨ha, -⟩
    · obtain ⟨hreason, e, he, hid, -, hkb, -⟩ := hlink r hr
      obtain ⟨e', he', hid', hkb'⟩ := hforth e he
      exact ⟨hreason, e', he', hid'.trans hid, hkb'.trans hkb⟩
    · obtain ⟨hreplaced, e, he, hid, hkb⟩ := hC.replacedBy a ha r hr
      obtain ⟨e', he', hid', hkb'⟩ := hforth e he
      exact ⟨hreplaced, e', he', hid'.trans hid, hkb'.trans hkb⟩
  · cases hnew : (d.deactivate reason replacedBy).replacedBy with
    | none =>
      refine hC.acyclic.mono ?_
      rintro a b ⟨e, he, hid, hrep⟩
      rcases hmem.mp he with rfl | ⟨he, -⟩
      · rw [hnew] at hrep
        cases hrep
      · exact ⟨e, he, hid, hrep⟩
    | some r =>
      obtain ⟨-, e, he, rfl, hne, -, hactive⟩ := hlink r hnew
      -- the replacement is in use, so nothing leads on from it
      have hsink := hC.not_replaced he (by rw [hactive]; decide)
      refine hC.acyclic.link (a := d.id) (b := e.id) ?_ ?_
      · rintro x ⟨f, hf, hfid, hfrep⟩
        rcases hmem.mp hf with rfl | ⟨hf, -⟩
        · exact hne hfid.symm
        · rw [Table.eq_of_key hf he hfid, hsink] at hfrep
          cases hfrep
      · rintro x y ⟨f, hf, hfid, hfrep⟩
        rcases hmem.mp hf with rfl | ⟨hf, -⟩
        · exact .inr ⟨hfid.symm, Option.some.inj (hfrep.symm.trans hnew)⟩
        · exact .inl ⟨f, hf, hfid, hfrep⟩

theorem Consistent.moved (hC : Consistent documents) (hm : DocumentsMoved documents documents') :
    Consistent documents' := by
  cases hm with
  | kept h =>
    rw [h]
    exact hC
  | registered hr h => exact hC.registered hr h
  | deactivated hd h => exact hC.deactivated hd h
  | worked hd h => exact hC.rewritten hd (by rfl) (by rfl) (by rfl) (by rfl) (by rfl) h

/-- A document out of use stays in the table, with its lifecycle status. -/
theorem inactive_moved (hm : DocumentsMoved documents documents') {d : Document}
    (hd : d ∈ documents) (hinactive : d.lifecycleStatus ∈ inactiveLifecycleStatuses) :
    ∃ d' ∈ documents', d'.id = d.id ∧ d'.lifecycleStatus = d.lifecycleStatus := by
  cases hm with
  | kept h =>
    rw [h]
    exact ⟨d, hd, rfl, rfl⟩
  | registered _ h => exact ⟨d, (Table.mem_insert h).mpr (.inl hd), rfl, rfl⟩
  | @deactivated e reason replacedBy he h =>
    have hne : d ≠ e := by
      rintro rfl
      exact not_inactive_of_active he.lifecycle hinactive
    rw [h]
    exact ⟨d, (Table.mem_save_of_mem he.mem (by rfl)).mpr (.inr ⟨hd, hne⟩), rfl, rfl⟩
  | @worked e status cleanedUri activeOperationId he h =>
    rw [h]
    by_cases hde : d = e
    · subst hde
      exact ⟨{ d with
          status := status, cleanedUri := cleanedUri, activeOperationId := activeOperationId },
        (Table.mem_save_of_mem he (by rfl)).mpr (.inl (by rfl)), rfl, rfl⟩
    · exact ⟨d, (Table.mem_save_of_mem he (by rfl)).mpr (.inr ⟨hd, hde⟩), rfl, rfl⟩

end Preservation

/-! ## Runs -/

section Runs

variable {settings : DocumentUploadSettings} {s s' : Registry}

theorem reachable_consistent (hs : (machine settings).Reachable s) : Consistent s.documents := by
  refine Machine.ReachableVia.invariant (P := fun s => Consistent s.documents) ?_ ?_ hs
  · intro s h
    exact Consistent.empty h
  · intro s act s' _ hC _ hstep
    exact hC.moved (step_moved hstep)

theorem inactive_of_run {as : List LifecycleAction} (h : (machine settings).run s as = some s')
    {d : Document} (hd : d ∈ s.documents)
    (hinactive : d.lifecycleStatus ∈ inactiveLifecycleStatuses) :
    ∃ d' ∈ s'.documents, d'.id = d.id ∧ d'.lifecycleStatus = d.lifecycleStatus := by
  induction as generalizing s d with
  | nil =>
    obtain rfl := Option.some.inj h
    exact ⟨d, hd, rfl, rfl⟩
  | cons act as ih =>
    obtain ⟨m, hstep, h⟩ := Machine.run_cons.mp h
    obtain ⟨e, he, hid, hlife⟩ := inactive_moved (step_moved hstep) hd hinactive
    obtain ⟨d', hd', hid', hlife'⟩ := ih h he (hlife ▸ hinactive)
    exact ⟨d', hd', hid'.trans hid, hlife'.trans hlife⟩

end Runs

/-! ## The pipeline -/

section Pipeline

variable {settings : DocumentUploadSettings} {processing : Settings} {s : Registry} {w w' : World}
  {act : Action}

/-- A transaction of the pipeline writes three columns of its document. -/
structure WorkedOn (d d' : Document) : Prop where
  columns : d' = { d with
    status := d'.status, cleanedUri := d'.cleanedUri, activeOperationId := d'.activeOperationId }

theorem worked_on (hm : Moved processing w act w') (hact : ∀ l t, act ≠ .changeLifecycle l t) :
    WorkedOn w.rows.document w'.rows.document := by
  cases hm with
  | lifecycleChanged => exact absurd rfl (hact _ _)
  | _ => exact ⟨rfl⟩

/-- A step of the pipeline is a step of the registry, on the document the pipeline works on. -/
theorem step_of_pipeline (hm : Moved processing w act w')
    (hact : ∀ l t, act ≠ .changeLifecycle l t)
    (hd : s.documents.get? w.rows.document.id = some w.rows.document) :
    ∃ act' s', step settings s act' = some s' ∧
      s'.documents.get? w.rows.document.id = some w'.rows.document := by
  obtain ⟨hmem, -⟩ := Table.get?_eq_some.mp hd
  have hwork := (worked_on hm hact).columns
  have hid : w'.rows.document.id = w.rows.document.id := by rw [hwork]
  have hstep : step settings s (.work w.rows.document.id w'.rows.document.status
      w'.rows.document.cleanedUri w'.rows.document.activeOperationId) =
      some { s with documents := s.documents.save w'.rows.document } := by
    rw [step, hd, Option.map_some, ← hwork]
  refine ⟨_, _, hstep, ?_⟩
  rw [← hid]
  exact Table.get?_save_self hmem hid

end Pipeline

/-- **The lifecycle of the documents.**  At any time the documents are consistent; a document out of
use stays so; an upload or a lifecycle change that is rejected leaves every document as it was.  What
the pipeline does to a document is a step of the registry. -/
theorem document_lifecycle (settings : DocumentUploadSettings) :
    (∀ s, (machine settings).Reachable s → Consistent s.documents) ∧
    (∀ s s' as, (machine settings).run s as = some s' → ∀ d ∈ s.documents,
      d.lifecycleStatus ∈ inactiveLifecycleStatuses → ∀ d' ∈ s'.documents, d'.id = d.id →
        d'.lifecycleStatus = d.lifecycleStatus) ∧
    (∀ documents documentId reason replacedBy now e,
      (deactivateDocument documents documentId reason replacedBy now).1 = .error e →
        (deactivateDocument documents documentId reason replacedBy now).2 = documents) ∧
    (∀ request duplicated id now documents e,
      (registerUpload settings request duplicated id now documents).1 = .error e →
        (registerUpload settings request duplicated id now documents).2 = documents) ∧
    ∀ (processing : Settings) (s : Registry) (w w' : World) (act : Action),
      (pipeline processing).Reachable w → Pipeline.step processing w act = some w' →
      (∀ lifecycle storage, act ≠ .changeLifecycle lifecycle storage) →
      s.documents.get? w.rows.document.id = some w.rows.document →
      ∃ act' s', step settings s act' = some s' ∧
        s'.documents.get? w.rows.document.id = some w'.rows.document := by
  refine ⟨fun s hs => reachable_consistent hs, ?_, ?_, ?_, ?_⟩
  · intro s s' as hrun d hd hinactive d' hd' hid
    obtain ⟨e, he, heid, hlife⟩ := inactive_of_run hrun hd hinactive
    rw [Table.eq_of_key hd' he (hid.trans heid.symm)]
    exact hlife
  · intro documents documentId reason replacedBy now e he
    rcases deactivateDocument_cases documents documentId reason replacedBy now with
      ⟨e', h⟩ | ⟨d, h⟩ | ⟨d, h, -⟩
    · rw [h]
    · rw [h]
    · rw [h] at he
      cases he
  · intro request duplicated id now documents e he
    rcases registerUpload_cases settings request duplicated id now documents with
      ⟨e', h⟩ | ⟨d, documents', h, -, -⟩
    · rw [h]
    · rw [h] at he
      cases he
  · intro processing s w w' act hw hstep hact hd
    exact step_of_pipeline (reachable_moved hw hstep) hact hd

/-! ### A replacement -/

def uploadSettings : DocumentUploadSettings := ⟨1, .uploaded⟩

def uploadOf (docCode contentHash : String) : UploadRequest :=
  ⟨docCode, 1, "general", none, "notes", "notes.txt", "txt", "raw/notes.txt", contentHash, none, none,
    "system"⟩

def noDocuments : Registry := ⟨⟨[], by simp⟩, 1, fun _ => none⟩

/-- The second document is indexed, and replaces the first. -/
def replacement : List LifecycleAction :=
  [.query 0 (uploadOf "D" "h"), .query 1 (uploadOf "E" "g"), .register 0 0 true, .register 1 0 true,
    .work 2 .indexed none none, .deactivate 1 .replaced (some 2) 1 true]

def replaced : Registry := ((machine uploadSettings).run noDocuments replacement).getD noDocuments

/-- The hash of the first document is free again; the second document is deleted. -/
def secondUpload : List LifecycleAction :=
  [.query 2 (uploadOf "F" "h"), .register 2 2 true, .deactivate 2 .deleted none 3 true]

def uploadedAgain : Registry :=
  ((machine uploadSettings).run replaced secondUpload).getD noDocuments

theorem document_lifecycle_replaced :
    Consistent replaced.documents ∧
    (∀ d ∈ uploadedAgain.documents, d.id = 1 → d.lifecycleStatus = .replaced) ∧
    (deactivateDocument replaced.documents 1 .expired none 4).2 = replaced.documents ∧
    (registerUpload uploadSettings (uploadOf "F" "g") none 4 4 replaced.documents).2 =
      replaced.documents ∧
    ∃ act s, step uploadSettings ⟨.single uploadedText.rows.document, 2, fun _ => none⟩ act = some s ∧
      (s.documents.get? 1).map (fun d => d.activeOperationId) = some (some "p") := by
  obtain ⟨hconsistent, hinactive, hdeactivate, hregister, hpipeline⟩ := document_lifecycle uploadSettings
  have hinit : (machine uploadSettings).init noDocuments := rfl
  have hrun : (machine uploadSettings).run noDocuments replacement = some replaced := rfl
  have hreplaced : (machine uploadSettings).Reachable replaced := Machine.Reachable.run (.init hinit) hrun
  refine ⟨hconsistent replaced hreplaced, fun d hd hid => ?_, hdeactivate _ _ _ _ _ _ rfl,
    hregister _ _ _ _ _ _ rfl, ?_⟩
  · exact hinactive replaced uploadedAgain secondUpload rfl _ (.head _) (by decide) d hd hid
  · obtain ⟨act, s, hstep, hdocument⟩ := hpipeline plainSettings
      ⟨.single uploadedText.rows.document, 2, fun _ => none⟩
      (uploadedText.afterAll [.start "p" .process]) _ (.claim "p")
      (World.reachable_afterAll (.init uploadedText_uploaded) _) rfl (fun _ _ h => by cases h) rfl
    exact ⟨act, s, hstep, congrArg (Option.map _) hdocument⟩

end Registry

end DocFlow.Pipeline
