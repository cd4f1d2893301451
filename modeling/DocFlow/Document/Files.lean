import DocFlow.Document.Fences

/-!
# The files of the artifacts

An attempt moves its cleaned file to the directory of its operation before it registers the
artifact, and a compensation removes the directories of an operation that has failed and still owns
the document.  Such an operation cannot complete any more, and one that has completed does not own
the document any more; so the file of an active artifact stays.
-/

namespace DocFlow.Pipeline

/-! ## The artifact rows -/

/-- The row of a registered artifact. -/
def PendingArtifact.row (artifact : PendingArtifact) : DocumentArtifact :=
  { artifactType := artifact.artifactType
    artifactRole := artifact.artifactRole
    artifactFormat := artifact.artifactFormat
    artifactUri := artifact.artifactUri
    status := .active
    metadataJson := artifact.metadata }

/-- The active artifacts of a type and a role, in the order of their creation. -/
def DocumentRows.activeArtifacts (rows : DocumentRows) (artifactType : DocumentArtifactType)
    (artifactRole : DocumentArtifactRole) : List DocumentArtifact :=
  rows.artifacts.filter fun a =>
    a.artifactType = artifactType ∧ a.status = .active ∧ a.artifactRole = artifactRole

section Rows

variable {rows : DocumentRows} {artifactType : DocumentArtifactType}
  {artifactRole : DocumentArtifactRole} {artifact : PendingArtifact}

theorem mem_activeArtifacts {a : DocumentArtifact} :
    a ∈ rows.activeArtifacts artifactType artifactRole ↔
      a ∈ rows.artifacts ∧ a.artifactType = artifactType ∧ a.status = .active ∧
        a.artifactRole = artifactRole := by
  simp [DocumentRows.activeArtifacts]

/-- The row before a registration may have been superseded by it. -/
theorem mem_persistArtifact {a : DocumentArtifact} :
    a ∈ (persistArtifact rows artifact).artifacts ↔
      (∃ b ∈ rows.artifacts, a =
        if b.artifactType = artifact.artifactType ∧ b.status = .active ∧
            b.artifactRole = artifact.artifactRole ∧ b.artifactFormat = artifact.artifactFormat then
          { b with status := .superseded }
        else b) ∨ a = artifact.row := by
  simp only [persistArtifact, DocumentRows.markActiveAsSuperseded, List.mem_append, List.mem_map,
    List.mem_singleton, eq_comm, PendingArtifact.row]

/-- The registered artifact is the latest of its type and role. -/
theorem getLatestActive_persistArtifact :
    (persistArtifact rows artifact).getLatestActive artifact.artifactType artifact.artifactRole =
      some artifact.row := by
  unfold DocumentRows.getLatestActive persistArtifact
  rw [List.filter_append]
  simp [PendingArtifact.row]

/-- Where all the rows of its type and role have its format, it is the only active one. -/
theorem activeArtifacts_persistArtifact
    (hformat : ∀ b ∈ rows.artifacts, b.artifactType = artifact.artifactType →
      b.artifactRole = artifact.artifactRole → b.artifactFormat = artifact.artifactFormat) :
    (persistArtifact rows artifact).activeArtifacts artifact.artifactType artifact.artifactRole =
      [artifact.row] := by
  unfold DocumentRows.activeArtifacts persistArtifact DocumentRows.markActiveAsSuperseded
  rw [List.filter_append]
  have hold : (rows.artifacts.map fun b =>
      if b.artifactType = artifact.artifactType ∧ b.status = .active ∧
          b.artifactRole = artifact.artifactRole ∧ b.artifactFormat = artifact.artifactFormat then
        { b with status := .superseded }
      else b).filter (fun a => a.artifactType = artifact.artifactType ∧ a.status = .active ∧
        a.artifactRole = artifact.artifactRole) = [] := by
    rw [List.filter_eq_nil_iff]
    intro a ha
    obtain ⟨b, hb, rfl⟩ := List.mem_map.mp ha
    rw [decide_eq_true_iff]
    by_cases hcond : b.artifactType = artifact.artifactType ∧ b.status = .active ∧
        b.artifactRole = artifact.artifactRole ∧ b.artifactFormat = artifact.artifactFormat
    · rw [if_pos hcond]
      rintro ⟨-, hstatus, -⟩
      cases hstatus
    · rw [if_neg hcond]
      rintro ⟨htype, hstatus, hrole⟩
      exact hcond ⟨htype, hstatus, hrole, hformat b hb htype hrole⟩
  rw [hold, List.nil_append]
  simp [PendingArtifact.row]

end Rows

/-! ## The data of an attempt -/

/-- A processing result whose files lie below the given roots. -/
structure Product (sourceType root secondaryRoot o : String) (result : ProcessingExecutionResult) :
    Prop where
  cleaned : CleanedIn root o result
  secondary : SecondaryIn secondaryRoot o result.secondaryArtifact
  /-- the format depends on the document only -/
  format : getProcessor (getExpectedProcessOutputType sourceType) =
    .ok result.cleanedArtifact.artifactFormat

/-- What the data of an attempt says about its files. -/
def Attempt.Made (settings : ProcessingSettings) (sourceType o : String) : Attempt → Prop
  | processing context => context.sourceType = sourceType
  | processingFenced context => context.sourceType = sourceType
  | processingOwned context => context.sourceType = sourceType
  | prepared _ source =>
    source.sourceType = getExpectedProcessOutputType sourceType ∧
      SecondaryIn settings.stagingStorageDir o source.secondaryArtifact
  | executed result =>
    Product sourceType settings.stagingStorageDir settings.stagingStorageDir o result
  | cleanedPromoted result =>
    Product sourceType settings.cleanedStorageDir settings.stagingStorageDir o result ∧
      settings.cleanedStorageDir ≠ settings.stagingStorageDir
  | promoted result =>
    Product sourceType settings.cleanedStorageDir settings.secondaryTextStorageDir o result ∧
      settings.cleanedStorageDir ≠ settings.stagingStorageDir
  | finalizing result =>
    Product sourceType settings.cleanedStorageDir settings.secondaryTextStorageDir o result ∧
      settings.cleanedStorageDir ≠ settings.stagingStorageDir
  | _ => True

section Step

variable {settings : Settings} {w w' : World} {act : Action}

theorem Moved.sourceType (hm : Moved settings w act w') :
    w'.rows.document.sourceType = w.rows.document.sourceType := by
  cases hm <;> rfl

theorem CleanedIn.path {root o : String} {result : ProcessingExecutionResult}
    (h : CleanedIn root o result) : result.cleanedPath = ⟨root, o, result.cleanedPath.name⟩ := by
  rw [← h.root, ← h.directory]

theorem FileMove.made {processing : ProcessingSettings} {files files' : List FilePath}
    {sourceType o : String} {a a' : Attempt} (h : FileMove processing files a a' files')
    (hk : a.Keyed o) (hmade : a.Made processing sourceType o) :
    a'.Made processing sourceType o := by
  cases h with
  | prepared h =>
    obtain ⟨hsecondary, hsource, -⟩ := prepareProcessSource_eq_ok h
    have hkey : ProcessingContext.operationId _ = o := hk
    have htype : ProcessingContext.sourceType _ = sourceType := hmade
    rw [hkey] at hsecondary
    rw [htype] at hsource
    exact ⟨hsource, hsecondary⟩
  | executed h =>
    obtain ⟨hcleaned, hsecondary, hformat, -⟩ := executeProcessing_eq_ok h
    have hkey : ProcessingContext.operationId _ = o := hk
    obtain ⟨htype, hstaged⟩ := hmade
    rw [hkey] at hcleaned
    rw [htype] at hformat
    exact ⟨hcleaned, hsecondary ▸ hstaged, hformat⟩
  | @cleaned result result' _ h =>
    obtain ⟨hpath, hresult, hnew, hold, -⟩ := promoteCleaned_eq_ok h
    obtain ⟨hcleaned, hsecondary, hformat⟩ := hmade
    have hkey : result.operationId = o := hcleaned.key
    rw [hkey] at hpath
    refine ⟨⟨⟨?_, ?_, ?_, ?_, ?_, ?_⟩, ?_, ?_⟩, ?_⟩
    · rw [hresult]
      exact hkey
    · rw [hpath]
    · rw [hpath]
    · rw [hresult]
    · rw [hresult]
      exact hcleaned.type
    · rw [hresult]
      exact hcleaned.role
    · rw [hresult]
      exact hsecondary
    · rw [hresult]
      exact hformat
    · -- the move refuses to put a file where it lies
      intro he
      rw [hpath, he, ← hcleaned.path] at hnew
      exact hnew hold
  | @secondary result result' _ h =>
    obtain ⟨hresult, hsecondary⟩ := promoteSecondary_eq_ok h
    obtain ⟨⟨hcleaned, hstaged, hformat⟩, hne⟩ := hmade
    refine ⟨⟨?_, ?_, ?_⟩, hne⟩
    · rw [hresult]
      exact ⟨hcleaned.key, hcleaned.root, hcleaned.directory, hcleaned.uri, hcleaned.type,
        hcleaned.role⟩
    · rcases hsecondary with ⟨hnone, -⟩ | ⟨s, destination, hs, hs', hdest, -⟩
      · intro artifact ha
        rw [hnone] at ha
        cases ha
      · intro artifact ha
        rw [hs'] at ha
        obtain rfl := Option.some.inj (Option.mem_def.mp ha)
        refine ⟨(hstaged s hs).1, ?_, ?_⟩
        · rw [hdest]
        · rw [hdest]
          exact hcleaned.key
    · rw [hresult]
      exact hformat

/-- What the attempts say about their files is right. -/
def Made (settings : Settings) (w : World) : Prop :=
  ∀ o a, w.attempts o = some a → a.Made settings.processing w.rows.document.sourceType o

theorem Made.moved (h : Made settings w) (hk : Keyed w) (hm : Moved settings w act w') :
    Made settings w' := by
  unfold Made
  rw [hm.sourceType]
  cases hm with
  | claimedProcess _ _ _ hsource => exact World.forall_setAttempt h hsource
  | processAcquired ha _ =>
    have hmade := h _ _ ha
    exact World.forall_setAttempt h hmade
  | processOwned ha _ _ =>
    have hmade := h _ _ ha
    exact World.forall_setAttempt h hmade
  | filesMoved ha _ hf => exact World.forall_setAttempt h (hf.made (hk _ _ ha) (h _ _ ha))
  | stagingCleared ha _ =>
    have hmade := h _ _ ha
    exact World.forall_setAttempt h hmade
  | _ => first | exact h | exact World.forall_setAttempt h trivial

/-! ## The step -/

/-- What a step does to the files. -/
inductive FilesMoved (settings : Settings) (w : World) (act : Action) (w' : World) : Prop
  | kept (h : w'.files = w.files)
  | moved {o : String} {a a' : Attempt} (hact : act.compensation = none)
      (h : w.attempts o = some a) (hm : FileMove settings.processing w.files a a' w'.files)
  | staging {o : String} (hact : act.compensation = none)
      (h : w'.files = rmtree w.files ⟨settings.processing.stagingStorageDir, o⟩)
  | cleared {i : Nat} {o : String} {dir : OperationDir} {dirs : List OperationDir}
      (ha : act = .clearDir i) (hi : w.compensations i = some ⟨o, .clearing (dir :: dirs)⟩)
      (h : w'.files = rmtree w.files dir)

theorem Moved.files (hm : Moved settings w act w') : FilesMoved settings w act w' := by
  cases hm with
  | filesMoved ha hact hf => exact .moved (by cases act <;> first | rfl | cases hact) ha hf
  | stagingCleared _ hf => exact .staging rfl (clearStaging_eq_ok hf)
  | dirCleared hi => exact .cleared rfl hi rfl
  | _ => exact .kept rfl

theorem mem_rmtree {files : List FilePath} {dir : OperationDir} {f : FilePath} :
    f ∈ rmtree files dir ↔ f ∈ files ∧ ¬ (f.root = dir.root ∧ f.operationId = dir.operationId) := by
  simp only [rmtree, List.mem_filter, decide_eq_true_iff]

/-- An attempt moves files out of the staging directory only. -/
theorem FileMove.keeps {processing : ProcessingSettings} {files files' : List FilePath}
    {sourceType o : String} {a a' : Attempt} (h : FileMove processing files a a' files')
    (hmade : a.Made processing sourceType o) {f : FilePath} (hf : f ∈ files)
    (hroot : f.root ≠ processing.stagingStorageDir) : f ∈ files' := by
  have hother : ∀ {g : FilePath}, g.root = processing.stagingStorageDir → f ≠ g := by
    rintro g hg rfl
    exact hroot hg
  cases h with
  | prepared h => exact (prepareProcessSource_eq_ok h).2.2 f hf
  | executed h =>
    rw [(executeProcessing_eq_ok h).2.2.2]
    exact mem_writeFile.mpr (.inl hf)
  | cleaned h =>
    obtain ⟨-, -, -, -, hfiles⟩ := promoteCleaned_eq_ok h
    have hne := hother hmade.cleaned.root
    rw [hfiles]
    simp [hf, hne]
  | secondary h =>
    obtain ⟨-, ⟨-, hfiles⟩ | ⟨s, destination, hs, -, -, hfiles⟩⟩ := promoteSecondary_eq_ok h
    · rw [hfiles]
      exact hf
    · have hne := hother (hmade.1.secondary s hs).2.1
      rw [hfiles]
      simp [hf, hne]

/-- A compensation that clears did so before, or finds in this step that it may. -/
theorem Moved.clearing_before (hm : Moved settings w act w') {i : Nat} {o : String}
    {dirs : List OperationDir} (hc' : w'.compensations i = some ⟨o, .clearing dirs⟩) :
    (∃ dirs', w.compensations i = some ⟨o, .clearing dirs'⟩ ∧ ∀ dir ∈ dirs, dir ∈ dirs') ∨
      w.owner = some o ∧ w.status = .failed ∧
        operationDirs settings.processing o = .ok dirs := by
  have hsame : ∀ j c, w.compensations j = some c → c = ⟨o, .clearing dirs⟩ →
      (∃ dirs', w.compensations j = some ⟨o, .clearing dirs'⟩ ∧ ∀ dir ∈ dirs, dir ∈ dirs') ∨
        w.owner = some o ∧ w.status = .failed ∧
          operationDirs settings.processing o = .ok dirs := by
    rintro j c hc rfl
    exact .inl ⟨dirs, hc, fun dir hdir => hdir⟩
  have hall : ∀ j c, w'.compensations j = some c → c = ⟨o, .clearing dirs⟩ →
      (∃ dirs', w.compensations j = some ⟨o, .clearing dirs'⟩ ∧ ∀ dir ∈ dirs, dir ∈ dirs') ∨
        w.owner = some o ∧ w.status = .failed ∧
          operationDirs settings.processing o = .ok dirs := by
    cases hm with
    | @compensationStarted _ _ a _ _ =>
      refine World.forall_setCompensation hsame (fun he => ?_)
      have hphase : a.stage.compensator = .clearing dirs := congrArg (·.phase) he
      cases hs : a.stage <;> rw [hs] at hphase <;> cases hphase
    | ownerChecked hi ho hs hd =>
      refine World.forall_setCompensation hsame (fun he => .inr ?_)
      cases he
      exact ⟨ho, hs, hd⟩
    | @dirCleared j o' dir dirs' hi =>
      refine World.forall_setCompensation hsame (fun he => .inl ?_)
      cases he
      exact ⟨dir :: dirs, hi, fun d hd => List.mem_cons_of_mem dir hd⟩
    | _ => first | exact hsame | exact World.forall_setCompensation hsame nofun
  exact hall i _ hc' rfl

/-- A completed processing attempt was so before, or completes the work of its operation. -/
theorem Moved.processed_before (hm : Moved settings w act w') {o : String}
    (ha' : w'.attempts o = some (.completed .process)) :
    w.attempts o = some (.completed .process) ∨ w.WorkedBy o .process := by
  have hsame : ∀ o a, w.attempts o = some a → a = .completed .process →
      w.attempts o = some (.completed .process) ∨ w.WorkedBy o .process := by
    rintro o a ha rfl
    exact .inl ha
  have hall : ∀ o a, w'.attempts o = some a → a = .completed .process →
      w.attempts o = some (.completed .process) ∨ w.WorkedBy o .process := by
    cases hm with
    | processCompleted _ hw =>
      exact World.forall_setAttempt hsame (fun _ => .inr ⟨hw.owner, hw.status⟩)
    | filesMoved _ _ hf =>
      refine World.forall_setAttempt hsame (fun he => ?_)
      rw [he] at hf
      cases hf
    | _ => first | exact hsame | exact World.forall_setAttempt hsame nofun
  exact hall o _ ha' rfl

/-- The result of an attempt that has promoted its cleaned file. -/
def Attempt.promotedResult : Attempt → Option ProcessingExecutionResult
  | cleanedPromoted result => some result
  | promoted result => some result
  | finalizing result => some result
  | _ => none

/-- A cleaned file was promoted before, or in this step. -/
theorem Moved.promoted_before (hm : Moved settings w act w') :
    ∀ o a', w'.attempts o = some a' → ∀ result' ∈ a'.promotedResult,
      (∃ a result, w.attempts o = some a ∧ result ∈ a.promotedResult ∧ a.stage = .process ∧
        result.cleanedPath = result'.cleanedPath) ∨ result'.cleanedPath ∈ w'.files := by
  have hstage : ∀ {a : Attempt} {result}, result ∈ a.promotedResult → a.stage = .process := by
    intro a result h
    cases a <;> first | rfl | cases h
  have hsame : ∀ v : World, ∀ o a, w.attempts o = some a → ∀ result' ∈ a.promotedResult,
      (∃ a result, w.attempts o = some a ∧ result ∈ a.promotedResult ∧ a.stage = .process ∧
        result.cleanedPath = result'.cleanedPath) ∨ result'.cleanedPath ∈ v.files :=
    fun v o a ha result' hr => .inl ⟨a, result', ha, hr, hstage hr, rfl⟩
  have hnone : ∀ {v : World} {o : String} {a' : Attempt}, a'.promotedResult = none →
      ∀ result' ∈ a'.promotedResult,
        (∃ a result, w.attempts o = some a ∧ result ∈ a.promotedResult ∧ a.stage = .process ∧
          result.cleanedPath = result'.cleanedPath) ∨ result'.cleanedPath ∈ v.files := by
    intro v o a' hphase result' hr
    rw [hphase] at hr
    cases hr
  cases hm with
  | @filesMoved _ o a a' files ha _ hf =>
    refine World.forall_setAttempt (hsame _) ?_
    intro result' hr
    cases hf with
    | prepared _ => cases hr
    | executed _ => cases hr
    | @cleaned _ promoted _ h =>
      obtain ⟨-, -, -, -, hfiles⟩ := promoteCleaned_eq_ok h
      have hmem : promoted.cleanedPath ∈ files := by
        rw [hfiles]
        exact List.mem_append_right _ (List.mem_singleton_self _)
      obtain rfl : promoted = result' := Option.some.inj hr
      exact .inr hmem
    | @secondary result promoted _ h =>
      have hpath : promoted.cleanedPath = result.cleanedPath :=
        congrArg (·.cleanedPath) (promoteSecondary_eq_ok h).1
      obtain rfl : promoted = result' := Option.some.inj hr
      exact .inl ⟨_, result, ha, rfl, rfl, hpath.symm⟩
  | stagingCleared ha _ =>
    refine World.forall_setAttempt (hsame _) ?_
    intro result' hr
    obtain rfl := Option.some.inj (Option.mem_def.mp hr)
    exact .inl ⟨_, _, ha, rfl, rfl, rfl⟩
  | _ => first | exact hsame _ | exact World.forall_setAttempt (hsame _) (hnone rfl)

/-- What a step does to the artifact rows. -/
theorem Moved.artifacts (hm : Moved settings w act w') :
    w'.rows.artifacts = w.rows.artifacts ∨
      ∃ o result, w.attempts o = some (.finalizing result) ∧ w.WorkedBy o .process ∧
        w'.rows.artifacts = (persistResult w.rows result).artifacts ∧ w'.files = w.files ∧
        w'.attempts o = some (.completed .process) := by
  cases hm with
  | @processCompleted o result ha hw =>
    exact .inr ⟨o, result, ha, ⟨hw.owner, hw.status⟩, rfl, rfl, attempts_new ..⟩
  | _ => exact .inl rfl

/-! ## The invariant -/

/-- The file of an active artifact lies in the directory of its operation, which has completed. -/
structure Stored (settings : Settings) (w : World) (path : FilePath) : Prop where
  root : path.root = settings.processing.cleanedStorageDir
  apart : settings.processing.cleanedStorageDir ≠ settings.processing.stagingStorageDir
  exists_file : path ∈ w.files
  completed : w.attempts path.operationId = some (.completed .process)

structure FileState (settings : Settings) (w : World) : Prop where
  made : Made settings w
  /-- a compensation clears the directories of its own operation, which has not completed -/
  clearing : ∀ i o dirs, w.compensations i = some ⟨o, .clearing dirs⟩ →
    (∀ dir ∈ dirs, dir.operationId = o) ∧ w.attempts o ≠ some (.completed .process)
  /-- an attempt at work finds its promoted file in place -/
  promoted : ∀ o a result, w.attempts o = some a → result ∈ a.promotedResult →
    w.WorkedBy o .process → result.cleanedPath ∈ w.files
  formats : ∀ b ∈ w.rows.artifacts, b.artifactType = .cleanedText → b.artifactRole = .processOutput ∧
    getProcessor (getExpectedProcessOutputType w.rows.document.sourceType) = .ok b.artifactFormat
  single : (w.rows.activeArtifacts .cleanedText .processOutput).length ≤ 1
  stored : ∀ b ∈ w.rows.activeArtifacts .cleanedText .processOutput, Stored settings w b.artifactUri

theorem Uploaded.fileState (h : Uploaded w) : FileState settings w := by
  have hactive : w.rows.activeArtifacts .cleanedText .processOutput = [] := by
    rw [DocumentRows.activeArtifacts, h.artifacts]
    rfl
  refine ⟨?_, ?_, ?_, ?_, ?_, ?_⟩
  · intro o a ha
    rw [h.attempts] at ha
    cases ha
  · intro i o dirs hi
    rw [h.compensations] at hi
    cases hi
  · intro o a result ha
    rw [h.attempts] at ha
    cases ha
  · intro b hb
    rw [h.artifacts] at hb
    cases hb
  · rw [hactive]
    exact Nat.zero_le 1
  · rw [hactive]
    nofun

theorem operationId_of_operationDirs {processing : ProcessingSettings} {o : String}
    {dirs : List OperationDir} (h : operationDirs processing o = .ok dirs) :
    ∀ dir ∈ dirs, dir.operationId = o := by
  obtain ⟨staging, hstaging, h⟩ := bind_eq_ok h
  obtain ⟨cleaned, hcleaned, h⟩ := bind_eq_ok h
  obtain ⟨secondary, hsecondary, h⟩ := bind_eq_ok h
  obtain rfl := operationScopedDir_eq_ok hstaging
  obtain rfl := operationScopedDir_eq_ok hcleaned
  obtain rfl := operationScopedDir_eq_ok hsecondary
  obtain rfl := Except.ok.inj h
  intro dir hdir
  rw [PyString.mem_fromKeys] at hdir
  simp only [List.mem_cons, List.not_mem_nil, or_false] at hdir
  rcases hdir with rfl | rfl | rfl <;> rfl

/-- **A file outside the staging directory stays**, unless its operation is being compensated. -/
theorem FileState.file_stays (hF : FileState settings w) (hm : Moved settings w act w')
    {f : FilePath} (hf : f ∈ w.files) (hroot : f.root ≠ settings.processing.stagingStorageDir)
    (hclear : ∀ i dirs, w.compensations i ≠ some ⟨f.operationId, .clearing dirs⟩) :
    f ∈ w'.files := by
  cases hm.files with
  | kept h =>
    rw [h]
    exact hf
  | moved _ ha hmove => exact hmove.keeps (hF.made _ _ ha) hf hroot
  | staging _ h =>
    rw [h, mem_rmtree]
    exact ⟨hf, fun he => hroot he.1⟩
  | @cleared i o dir dirs _ hi h =>
    rw [h, mem_rmtree]
    refine ⟨hf, fun he => hclear i (dir :: dirs) ?_⟩
    rw [hi, he.2, (hF.clearing i o _ hi).1 dir (List.mem_cons_self ..)]

theorem FileState.clearing_moved (hF : FileState settings w) (hr : Roles w)
    (hm : Moved settings w act w') {i : Nat} {o : String} {dirs : List OperationDir}
    (hi' : w'.compensations i = some ⟨o, .clearing dirs⟩) :
    (∀ dir ∈ dirs, dir.operationId = o) ∧ w'.attempts o ≠ some (.completed .process) := by
  rcases hm.clearing_before hi' with ⟨dirs', hi, hsub⟩ | ⟨ho, hfailed, hdirs⟩
  · obtain ⟨hown, hopen⟩ := hF.clearing i o dirs' hi
    refine ⟨fun dir hdir => hown dir (hsub dir hdir), fun hdone => ?_⟩
    rcases hm.processed_before hdone with hdone | ⟨ho, hs⟩
    · exact hopen hdone
    · -- the compensation knows that the operation has failed
      cases hs.symm.trans ((hr.clearing i _ dirs' hi rfl).2 ho)
  · refine ⟨operationId_of_operationDirs hdirs, fun hdone => ?_⟩
    rcases hm.processed_before hdone with hdone | ⟨-, hs⟩
    · obtain ⟨a, ha, hu, -⟩ := hr.owner o ho
      obtain rfl := Option.some.inj (ha.symm.trans hdone)
      exact hu.elim
    · cases hs.symm.trans hfailed

theorem Attempt.Made.promoted {processing : ProcessingSettings} {sourceType o : String} {a : Attempt}
    {result : ProcessingExecutionResult} (h : a.Made processing sourceType o)
    (hr : result ∈ a.promotedResult) :
    CleanedIn processing.cleanedStorageDir o result ∧
      processing.cleanedStorageDir ≠ processing.stagingStorageDir := by
  cases a with
  | cleanedPromoted _ =>
    obtain rfl := Option.some.inj hr
    exact ⟨h.1.cleaned, h.2⟩
  | promoted _ =>
    obtain rfl := Option.some.inj hr
    exact ⟨h.1.cleaned, h.2⟩
  | finalizing _ =>
    obtain rfl := Option.some.inj hr
    exact ⟨h.1.cleaned, h.2⟩
  | _ => cases hr

theorem FileState.promoted_moved (hF : FileState settings w) (hr : Roles w)
    (hm : Moved settings w act w') {o : String} {a' : Attempt} {result' : ProcessingExecutionResult}
    (ha' : w'.attempts o = some a') (hresult : result' ∈ a'.promotedResult)
    (hwork' : w'.WorkedBy o .process) : result'.cleanedPath ∈ w'.files := by
  rcases hm.promoted_before o a' ha' result' hresult with ⟨a, result, ha, hold, hstage, hpath⟩ | hin
  · rw [← hpath]
    have hclaimed : a.Claimed := by
      cases a <;> trivial
    have hwork := hm.workedBy_before ⟨a, ha, hclaimed, hstage⟩ hwork'
    obtain ⟨hcleaned, hne⟩ := (hF.made o a ha).promoted hold
    refine hF.file_stays hm (hF.promoted o a result ha hold hwork) ?_ ?_
    · rw [hcleaned.root]
      exact hne
    · intro i dirs hi
      rw [hcleaned.directory] at hi
      cases hwork.2.symm.trans ((hr.clearing i _ dirs hi rfl).2 hwork.1)
  · exact hin

/-- A cleaned row is not touched by the registration of a secondary text. -/
theorem mem_persistSecondary {rows : DocumentRows} {secondary : Option PendingArtifact}
    (htype : ∀ s ∈ secondary, s.artifactType = .secondaryText) {b : DocumentArtifact}
    (hb : b ∈ (persistSecondary rows secondary).artifacts) (hcleaned : b.artifactType = .cleanedText) :
    b ∈ rows.artifacts := by
  cases secondary with
  | none => exact hb
  | some s =>
    have hs := htype s rfl
    rcases mem_persistArtifact.mp hb with ⟨c, hc, he⟩ | he
    · split_ifs at he with hcond
      · rw [he] at hcleaned
        cases hcleaned.symm.trans (hcond.1.trans hs)
      · rw [he]
        exact hc
    · rw [he] at hcleaned
      cases hcleaned.symm.trans hs

theorem FileState.formats_moved (hF : FileState settings w) (hm : Moved settings w act w')
    {b : DocumentArtifact} (hb : b ∈ w'.rows.artifacts) (htype : b.artifactType = .cleanedText) :
    b.artifactRole = .processOutput ∧
      getProcessor (getExpectedProcessOutputType w'.rows.document.sourceType) =
        .ok b.artifactFormat := by
  rw [hm.sourceType]
  rcases hm.artifacts with h | ⟨o, result, ha, -, h, -, -⟩
  · rw [h] at hb
    exact hF.formats b hb htype
  · obtain ⟨⟨hcleaned, hsecondary, hformat⟩, -⟩ := hF.made o _ ha
    rw [h] at hb
    rcases mem_persistArtifact.mp hb with ⟨c, hc, he⟩ | rfl
    · have hrow : b.artifactType = c.artifactType ∧ b.artifactRole = c.artifactRole ∧
          b.artifactFormat = c.artifactFormat := by
        rw [he]
        split <;> exact ⟨rfl, rfl, rfl⟩
      obtain ⟨hsame, hrole, hsameFormat⟩ := hrow
      have hold : c ∈ w.rows.artifacts :=
        mem_persistSecondary (fun s hs => (hsecondary s hs).1) hc (hsame.symm.trans htype)
      rw [hrole, hsameFormat]
      exact hF.formats c hold (hsame.symm.trans htype)
    · exact ⟨hcleaned.role, hformat⟩

/-- The active cleaned artifacts after a completion: the one it registers. -/
theorem FileState.active_after (hF : FileState settings w) {o : String}
    {result : ProcessingExecutionResult} (ha : w.attempts o = some (.finalizing result))
    (h : w'.rows.artifacts = (persistResult w.rows result).artifacts) :
    w'.rows.activeArtifacts .cleanedText .processOutput = [result.cleanedArtifact.row] := by
  obtain ⟨⟨hcleaned, hsecondary, hformat⟩, -⟩ := hF.made o _ ha
  have hsame : w'.rows.activeArtifacts .cleanedText .processOutput =
      (persistResult w.rows result).activeArtifacts .cleanedText .processOutput := by
    unfold DocumentRows.activeArtifacts
    rw [h]
  rw [hsame, ← hcleaned.type, ← hcleaned.role]
  refine activeArtifacts_persistArtifact fun b hb htype _ => ?_
  rw [hcleaned.type] at htype
  have hold := mem_persistSecondary (fun s hs => (hsecondary s hs).1) hb htype
  exact Except.ok.inj ((hF.formats b hold htype).2.symm.trans hformat)

theorem FileState.single_moved (hF : FileState settings w) (hm : Moved settings w act w') :
    (w'.rows.activeArtifacts .cleanedText .processOutput).length ≤ 1 := by
  rcases hm.artifacts with h | ⟨o, result, ha, -, h, -, -⟩
  · unfold DocumentRows.activeArtifacts
    rw [h]
    exact hF.single
  · rw [hF.active_after ha h]
    exact Nat.le_refl 1

theorem FileState.stored_moved (hF : FileState settings w) (hm : Moved settings w act w')
    {b : DocumentArtifact} (hb : b ∈ w'.rows.activeArtifacts .cleanedText .processOutput) :
    Stored settings w' b.artifactUri := by
  rcases hm.artifacts with h | ⟨o, result, ha, hwork, h, hfiles, hdone⟩
  · unfold DocumentRows.activeArtifacts at hb
    rw [h] at hb
    obtain ⟨hroot, hne, hin, hcompleted⟩ := hF.stored b hb
    refine ⟨hroot, hne, hF.file_stays hm hin (by rw [hroot]; exact hne) ?_, ?_⟩
    · intro i dirs hi
      exact (hF.clearing i _ dirs hi).2 hcompleted
    · obtain ⟨a', ha', hp⟩ := hm.progress _ _ hcompleted
      rcases hp with rfl | ⟨hr, -⟩
      · exact ha'
      · cases hr
  · rw [hF.active_after ha h, List.mem_singleton] at hb
    obtain ⟨⟨hcleaned, -, -⟩, hne⟩ := hF.made o _ ha
    have huri : b.artifactUri = result.cleanedPath := by
      rw [hb]
      exact hcleaned.uri
    rw [huri]
    refine ⟨hcleaned.root, hne, ?_, ?_⟩
    · rw [hfiles]
      exact hF.promoted o _ result ha rfl hwork
    · rw [hcleaned.directory]
      exact hdone

theorem FileState.moved (hF : FileState settings w) (hr : Roles w) (hm : Moved settings w act w') :
    FileState settings w' where
  made := hF.made.moved hr.keyed hm
  clearing _ _ _ hi' := hF.clearing_moved hr hm hi'
  promoted _ _ _ ha' hresult hwork' := hF.promoted_moved hr hm ha' hresult hwork'
  formats _ hb htype := hF.formats_moved hm hb htype
  single := hF.single_moved hm
  stored _ hb := hF.stored_moved hm hb

end Step

theorem reachable_files {settings : Settings} {w : World}
    (hw : (pipeline settings).Reachable w) : FileState settings w := by
  refine Machine.ReachableVia.invariant (P := FileState settings) ?_ ?_ hw
  · intro w h
    exact Uploaded.fileState h
  · intro w act w' hr hF _ hs
    exact hF.moved (reachable_roles hr) (reachable_moved hr hs)

/-- **The file of the active artifact is never lost.**  It exists, in the directory of the completed
operation that made it; no step of a compensation removes a file of a completed operation; at most
one cleaned artifact is active. -/
theorem active_artifact_stored (settings : Settings) :
    (∀ w, (pipeline settings).Reachable w → ∀ b ∈ w.rows.artifacts, b.artifactType = .cleanedText →
      b.status = .active → b.artifactUri ∈ w.files ∧
        b.artifactUri.root = settings.processing.cleanedStorageDir ∧
        w.attempts b.artifactUri.operationId = some (.completed .process)) ∧
    (∀ w w' act i, (pipeline settings).Reachable w → act.compensation = some i →
      step settings w act = some w' → ∀ f ∈ w.files,
        w.attempts f.operationId = some (.completed .process) → f ∈ w'.files) ∧
    ∀ w, (pipeline settings).Reachable w →
      (w.rows.artifacts.filter fun b => b.artifactType = .cleanedText ∧ b.status = .active ∧
        b.artifactRole = .processOutput).length ≤ 1 := by
  refine ⟨?_, ?_, fun w hw => (reachable_files hw).single⟩
  · intro w hw b hb htype hactive
    have hF := reachable_files hw
    have hrole := (hF.formats b hb htype).1
    have hstored := hF.stored b (mem_activeArtifacts.mpr ⟨hb, htype, hactive, hrole⟩)
    exact ⟨hstored.exists_file, hstored.root, hstored.completed⟩
  · intro w w' act i hw hact hs f hf hcompleted
    have hF := reachable_files hw
    have hm := reachable_moved hw hs
    cases hm.files with
    | kept h =>
      rw [h]
      exact hf
    | moved hnone _ _ => cases hact.symm.trans hnone
    | staging hnone _ => cases hact.symm.trans hnone
    | @cleared j o dir dirs _ hj h =>
      rw [h, mem_rmtree]
      refine ⟨hf, fun he => ?_⟩
      obtain ⟨hown, hopen⟩ := hF.clearing j o _ hj
      rw [he.2, hown dir (List.mem_cons_self ..)] at hcompleted
      exact hopen hcompleted

/-! ### An artifact beside a failed attempt -/

/-- A document with an active artifact is processed again; that attempt fails, and its directories are
cleared. -/
def failedAgain : List Action :=
  processAll "p" ++ chunkAll "c" ++ [.start "i" .indexVectors, .claim "i", .stop "i"] ++
    compensateIndex 0 "i" ++ (processAll "q").dropLast ++ [.stop "q", .compensate 1 "q", .fail 1,
      .fence 1, .checkOwner 1, .clearDir 1]

theorem active_artifact_stored_failedAgain :
    (∃ b ∈ (uploadedText.afterAll failedAgain).rows.artifacts,
      b.artifactUri ∈ (uploadedText.afterAll failedAgain).files ∧
      b.artifactUri ∈ (uploadedText.afterAll (failedAgain ++ [.clearDir 1])).files) ∧
    ((uploadedText.afterAll failedAgain).rows.artifacts.filter fun b => b.artifactType = .cleanedText ∧
      b.status = .active ∧ b.artifactRole = .processOutput).length ≤ 1 := by
  obtain ⟨hstored, hkept, hsingle⟩ := active_artifact_stored plainSettings
  have hfailed : (pipeline plainSettings).Reachable (uploadedText.afterAll failedAgain) :=
    World.reachable_afterAll (.init uploadedText_uploaded) _
  obtain ⟨hfile, -, hcompleted⟩ := hstored _ hfailed _ (.head _) rfl rfl
  exact ⟨⟨_, .head _, hfile, hkept _ _ (.clearDir 1) 1 hfailed rfl rfl _ hfile hcompleted⟩,
    hsingle _ hfailed⟩

end DocFlow.Pipeline
