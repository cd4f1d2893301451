import DocFlow.Document.Upload

/-!
# What an upload leaves in a run

`upload_all_or_nothing` says what an upload leaves by the way it has ended.  Here it is said by what has
happened in the run: an upload that has ended has left its file and its row, or neither of them, just
when nothing has cut it off (`Cuts`).  The use case catches `Exception`, so its clean-up does not see
that the task is cancelled while it waits for the next chunk; nor does it run when the process dies, and
it takes the file from a row whose commit raises although the server has committed.

The removal of a file is taken to work.
-/

namespace DocFlow.Upload

open Pipeline

/-! ## What cuts an upload off -/

/-- `unlink` raises in the step, if the step comes to it. -/
def UploadAction.unlinkRaises : UploadAction → Bool
  | .start _ _ _ _ _ unlinkRaises => unlinkRaises
  | .read _ _ unlinkRaises => unlinkRaises
  | .save _ _ unlinkRaises => unlinkRaises
  | .query _ _ unlinkRaises => unlinkRaises
  | .register _ _ _ unlinkRaises => unlinkRaises
  | .crash _ | .deactivate .. | .work .. => false

/-- The row of the upload can be inserted: its keys are free. -/
def CanInsert (settings : UploadSettings) (docCode : Nat → String) (s : UploadState) (upload : Nat)
    (now : Time) : Prop :=
  ∃ draft contentHash, s.uploads upload = some (.finalizing draft contentHash) ∧
    (createDocument s.documents (buildDocument settings.toDocumentUploadSettings
      (uploadRequest (docCode upload) draft contentHash) s.nextDocumentId now)).1 = .ok ()

/-- The step cuts the upload off. -/
inductive Cuts (settings : UploadSettings) (docCode : Nat → String) (upload : Nat) (s : UploadState) :
    UploadAction → Prop
  /-- the task is cancelled while it waits for the next chunk -/
  | cancelled (unlinkRaises : Bool) : Cuts settings docCode upload s (.read upload .cancelled unlinkRaises)
  /-- the process dies -/
  | died : Cuts settings docCode upload s (.crash upload)
  /-- the commit raises, but the server has committed -/
  | answerLost (now : Time) (unlinkRaises : Bool) : CanInsert settings docCode s upload now →
      Cuts settings docCode upload s (.register upload now .answerLost unlinkRaises)

/-- The endings that leave a file without its row, or a row without its file. -/
def UploadEnding.isCut : UploadEnding → Bool
  | .abandoned | .uncleaned _ | .answerLost => true
  | .created _ | .raisedLate _ | .rejected _ => false

def UploadPhase.isCut : UploadPhase → Bool
  | .ended ending => ending.isCut
  | _ => false

/-- The upload has been cut off. -/
def IsCut (s : UploadState) (upload : Nat) : Prop :=
  ∃ phase, s.uploads upload = some phase ∧ phase.isCut = true

/-! ## The steps of an upload -/

section Steps

variable {ports : UploadPorts} {settings : UploadSettings} {docCode : Nat → String}
  {s s' : UploadState} {upload : Nat} {draft : Draft}

theorem isCut_setUpload {phase : UploadPhase} :
    IsCut (s.setUpload upload phase) upload ↔ phase.isCut = true := by
  have hphase : (s.setUpload upload phase).uploads upload = some phase := Function.update_self ..
  constructor
  · rintro ⟨phase', hphase', hcut⟩
    obtain rfl := Option.some.inj (hphase.symm.trans hphase')
    exact hcut
  · intro hcut
    exact ⟨phase, hphase, hcut⟩

theorem not_isCut_setUpload {phase : UploadPhase} (h : phase.isCut = false) :
    ¬ IsCut (s.setUpload upload phase) upload := by
  rw [isCut_setUpload, h]
  exact Bool.false_ne_true

theorem not_isCut_reject (e : UploadError) : ¬ IsCut (s.reject upload draft e false) upload := by
  have hrejected : (UploadPhase.ended (.rejected e)).isCut = false := rfl
  exact not_isCut_setUpload hrejected

theorem not_isCut_stepStart {file : UploadFile} {info : UploadMeta} {actorCode : Option String}
    {fault : Option StartFault} : ¬ IsCut
      (stepStart ports settings docCode s upload file info actorCode fault false) upload := by
  rw [stepStart]
  cases validate ports settings (docCode upload) file info actorCode with
  | error e => exact not_isCut_setUpload rfl
  | ok draft =>
    cases fault with
    | none => exact not_isCut_setUpload rfl
    | some fault =>
      cases fault with
      | mkdir => exact not_isCut_setUpload rfl
      | log | openFile => exact not_isCut_reject _

theorem isCut_stepRead {event : ReadEvent} :
    IsCut (stepRead settings s upload draft false event) upload ↔ event = .cancelled := by
  cases event with
  | cancelled => exact iff_of_true (isCut_setUpload.mpr rfl) rfl
  | raised => exact iff_of_false (not_isCut_reject _) (by intro h; cases h)
  | chunk bytes =>
    refine iff_of_false ?_ (by intro h; cases h)
    cases bytes with
    | nil =>
      simp only [stepRead]
      split
      · exact not_isCut_reject _
      · exact not_isCut_setUpload rfl
    | cons byte bytes =>
      simp only [stepRead]
      split
      · exact not_isCut_reject _
      · exact not_isCut_setUpload rfl

theorem not_isCut_stepSave {fault : Bool} :
    ¬ IsCut (stepSave ports s upload draft fault false) upload := by
  cases fault with
  | true => exact not_isCut_reject _
  | false =>
    unfold stepSave
    split
    · exact not_isCut_setUpload rfl
    · exact not_isCut_reject _

theorem not_isCut_stepQuery {contentHash : String} {fault : Bool} :
    ¬ IsCut (stepQuery s upload draft contentHash fault false) upload := by
  rw [stepQuery]
  split
  · exact not_isCut_reject _
  · split
    · exact not_isCut_reject _
    · exact not_isCut_setUpload rfl

theorem isCut_stepRegister {contentHash : String} {now : Time} {outcome : CommitOutcome} :
    IsCut (stepRegister settings docCode s upload draft contentHash now outcome false) upload ↔
      outcome = .answerLost ∧
        (createDocument s.documents (buildDocument settings.toDocumentUploadSettings
          (uploadRequest (docCode upload) draft contentHash) s.nextDocumentId now)).1 = .ok () := by
  rw [stepRegister]
  generalize buildDocument settings.toDocumentUploadSettings
    (uploadRequest (docCode upload) draft contentHash) s.nextDocumentId now = d
  cases hcreate : createDocument s.documents d with
  | mk result documents =>
    cases result with
    | error e =>
      refine iff_of_false (not_isCut_reject _) ?_
      rintro ⟨-, h⟩
      cases h
    | ok u =>
      cases outcome with
      | failed =>
        refine iff_of_false (not_isCut_reject _) ?_
        rintro ⟨h, -⟩
        cases h
      | answerLost => exact iff_of_true (isCut_setUpload.mpr rfl) ⟨rfl, rfl⟩
      | committed exitRaises =>
        refine iff_of_false ?_ ?_
        · cases exitRaises with
          | false | true => exact not_isCut_setUpload rfl
        · rintro ⟨h, -⟩
          cases h

/-- **A step cuts its upload off** just when it is one of those. -/
theorem isCut_iff_cuts {a : UploadAction} (h : step ports settings docCode s a = some s')
    (hactor : a.upload? = some upload) (hunlink : a.unlinkRaises = false) :
    IsCut s' upload ↔ Cuts settings docCode upload s a := by
  cases a with
  | start u file info actorCode fault unlinkRaises =>
    obtain rfl : u = upload := Option.some.inj hactor
    obtain rfl : unlinkRaises = false := hunlink
    cases hphase : s.uploads u with
    | some phase => simp [step, hphase] at h
    | none =>
      simp only [step, hphase] at h
      obtain rfl := Option.some.inj h
      exact iff_of_false not_isCut_stepStart (by intro hcuts; cases hcuts)
  | read u event unlinkRaises =>
    obtain rfl : u = upload := Option.some.inj hactor
    obtain rfl : unlinkRaises = false := hunlink
    simp only [step] at h
    split at h
    · obtain rfl := Option.some.inj h
      rw [isCut_stepRead]
      constructor
      · rintro rfl
        exact .cancelled false
      · intro hcuts
        cases hcuts
        rfl
    · cases h
  | save u fault unlinkRaises =>
    obtain rfl : u = upload := Option.some.inj hactor
    obtain rfl : unlinkRaises = false := hunlink
    simp only [step] at h
    split at h
    · obtain rfl := Option.some.inj h
      exact iff_of_false not_isCut_stepSave (by intro hcuts; cases hcuts)
    · cases h
  | query u fault unlinkRaises =>
    obtain rfl : u = upload := Option.some.inj hactor
    obtain rfl : unlinkRaises = false := hunlink
    simp only [step] at h
    split at h
    · obtain rfl := Option.some.inj h
      exact iff_of_false not_isCut_stepQuery (by intro hcuts; cases hcuts)
    · cases h
  | register u now outcome unlinkRaises =>
    obtain rfl : u = upload := Option.some.inj hactor
    obtain rfl : unlinkRaises = false := hunlink
    simp only [step] at h
    split at h
    · next draft contentHash hphase =>
      obtain rfl := Option.some.inj h
      rw [isCut_stepRegister]
      constructor
      · rintro ⟨rfl, hinsert⟩
        exact .answerLost now false ⟨draft, contentHash, hphase, hinsert⟩
      · intro hcuts
        cases hcuts with
        | answerLost _ _ hinsert =>
          obtain ⟨draft', contentHash', hphase', hinsert⟩ := hinsert
          cases hphase.symm.trans hphase'
          exact ⟨rfl, hinsert⟩
    · cases h
  | crash u =>
    obtain rfl : u = upload := Option.some.inj hactor
    simp only [step] at h
    split at h
    · cases h
    · cases h
    · obtain rfl := Option.some.inj h
      exact iff_of_true (isCut_setUpload.mpr rfl) .died
  | deactivate | work => cases hactor

theorem upload_of_cuts {a : UploadAction} (h : Cuts settings docCode upload s a) :
    a.upload? = some upload := by
  cases h <;> rfl

/-- An upload that has ended takes no step. -/
theorem not_actor_of_ended {a : UploadAction} {ending : UploadEnding}
    (hended : s.uploads upload = some (.ended ending))
    (h : step ports settings docCode s a = some s') : a.upload? ≠ some upload := by
  intro hactor
  cases a with
  | deactivate | work => cases hactor
  | start u | read u | save u | query u | register u | crash u =>
    obtain rfl : u = upload := Option.some.inj hactor
    simp [step, hended] at h

/-- To another upload, a step changes neither its phase nor its files. -/
theorem step_others (hdistinct : Function.Injective docCode)
    (hs : (machine ports settings docCode).Reachable s) {a : UploadAction}
    (h : step ports settings docCode s a = some s') {other : Nat} (hne : a.upload? ≠ some other) :
    s'.uploads other = s.uploads other ∧
      ∀ path, Owns docCode other path → s'.files path = s.files path := by
  cases step_moves (phaseSound_of_reachable hdistinct hs) h with
  | acted u hactor hacted =>
    have hother : other ≠ u := by
      rintro rfl
      exact hne hactor
    exact ⟨hacted.uploads other hother,
      fun path hpath => hacted.files path fun hown => hother (hpath.unique hdistinct hown)⟩
  | rewritten huploads hframed => exact ⟨congrFun huploads other, (hframed other).files⟩

theorem IsCut.step (hdistinct : Function.Injective docCode)
    (hs : (machine ports settings docCode).Reachable s) {a : UploadAction}
    (h : IsCut s upload) (hstep : step ports settings docCode s a = some s') : IsCut s' upload := by
  obtain ⟨phase, hphase, hcut⟩ := h
  cases phase with
  | ended ending =>
    have hothers := step_others hdistinct hs hstep (not_actor_of_ended hphase hstep)
    exact ⟨_, hothers.1.trans hphase, hcut⟩
  | _ => cases hcut

end Steps

/-! ## Runs -/

section Runs

variable {ports : UploadPorts} {settings : UploadSettings} {docCode : Nat → String}
  {s s' : UploadState} {upload : Nat} {as : List UploadAction}

theorem IsCut.run {ok : UploadState → UploadAction → Prop} (hdistinct : Function.Injective docCode)
    (hs : (machine ports settings docCode).Reachable s)
    (hrun : (machine ports settings docCode).RunVia ok s as s') (h : IsCut s upload) :
    IsCut s' upload := by
  induction hrun with
  | nil => exact h
  | cons _ hstep _ ih => exact ih (hs.step trivial hstep) (h.step hdistinct hs hstep)

/-- An upload has been cut off just when a step of the run has done it. -/
theorem not_isCut_iff_of_run (hdistinct : Function.Injective docCode)
    (hs : (machine ports settings docCode).Reachable s)
    (hrun : (machine ports settings docCode).RunVia (fun _ a => a.unlinkRaises = false) s as s')
    (hnot : ¬ IsCut s upload) : ¬ IsCut s' upload ↔
      (machine ports settings docCode).RunVia
        (fun s a => ¬ Cuts settings docCode upload s a) s as s' := by
  induction hrun with
  | nil s => exact iff_of_true hnot (.nil s)
  | @cons s m s' a as hunlink hstep hrest ih =>
    have hm := hs.step trivial hstep
    by_cases hcuts : Cuts settings docCode upload s a
    · -- what is cut off stays so
      have hcut := (isCut_iff_cuts hstep (upload_of_cuts hcuts) hunlink).mpr hcuts
      refine iff_of_false (not_not.mpr (hcut.run hdistinct hm hrest)) ?_
      intro h
      cases h with
      | cons hok => exact hok hcuts
    · have hmid : ¬ IsCut m upload := by
        by_cases hactor : a.upload? = some upload
        · exact mt (isCut_iff_cuts hstep hactor hunlink).mp hcuts
        · rw [IsCut, (step_others hdistinct hs hstep hactor).1]
          exact hnot
      rw [ih hm hmid]
      constructor
      · exact .cons hcuts hstep
      · intro h
        cases h with
        | cons _ hstep' h =>
          cases hstep.symm.trans hstep'
          exact h

/-! ## All of it or nothing -/

/-- The file of the upload is there just when its row is, and the row describes this file. -/
structure Whole (ports : UploadPorts) (settings : UploadSettings) (docCode : Nat → String)
    (s : UploadState) (upload : Nat) : Prop where
  stored : FileStored docCode s upload ↔ RowStored docCode s upload
  described : ∀ d ∈ s.documents, d.docCode = docCode upload → ∀ path content,
    Owns docCode upload path → s.files path = some content →
      Describes ports settings s d path content

theorem whole_iff {ending : UploadEnding}
    (h : PhaseSound ports settings docCode s upload (some (.ended ending))) :
    Whole ports settings docCode s upload ↔ ending.isCut = false := by
  constructor
  · intro hwhole
    have hstored := hwhole.stored
    rw [fileStored_iff h, rowStored_iff h] at hstored
    cases ending with
    | created | raisedLate | rejected => rfl
    | abandoned | uncleaned => cases hstored.mp rfl
    | answerLost => cases hstored.mpr rfl
  · intro hcut
    refine ⟨?_, fun d hd hcode path content hpath hfile => ?_⟩
    · rw [fileStored_iff h, rowStored_iff h]
      cases ending with
      | created | raisedLate | rejected => exact Iff.rfl
      | abandoned | uncleaned | answerLost => cases hcut
    · cases ending with
      | created _ | raisedLate _ =>
        obtain ⟨path', content', hkept⟩ := h
        have hdescribes := hkept.describes d hd hcode
        by_cases heq : path = path'
        · subst heq
          cases hfile.symm.trans hdescribes.file
          exact hdescribes
        · rw [hkept.only path hpath heq] at hfile
          cases hfile
      | rejected e => exact absurd hcode (h.2 d hd)
      | abandoned | uncleaned | answerLost => cases hcut

/-- **An upload that has ended is whole** just when no step of the run has cut it off.  One that was
rejected has left neither file nor row, and no step touches the files of another upload. -/
theorem upload_whole_iff {s₀ : UploadState} (hdistinct : Function.Injective docCode)
    (hinit : (machine ports settings docCode).init s₀)
    (hrun : (machine ports settings docCode).RunVia (fun _ a => a.unlinkRaises = false) s₀ as s) :
    (∀ upload ending, s.uploads upload = some (.ended ending) →
      (Whole ports settings docCode s upload ↔ (machine ports settings docCode).RunVia
        (fun s a => ¬ Cuts settings docCode upload s a) s₀ as s) ∧
      (∀ e, ending = .rejected e →
        ¬ FileStored docCode s upload ∧ ¬ RowStored docCode s upload)) ∧
    ∀ a s', step ports settings docCode s a = some s' → ∀ other, a.upload? ≠ some other →
      ∀ path, Owns docCode other path → s'.files path = s.files path := by
  have hs : (machine ports settings docCode).Reachable s :=
    Machine.Reachable.run (.init hinit) hrun.run
  refine ⟨fun upload ending hended => ?_, fun a s' hstep other hne =>
    (step_others hdistinct hs hstep hne).2⟩
  have hsound := phaseSound_of_reachable hdistinct hs upload
  rw [hended] at hsound
  have hstart : ¬ IsCut s₀ upload := by
    rintro ⟨phase, hphase, -⟩
    rw [hinit.2.2 upload] at hphase
    cases hphase
  have hcut : ¬ IsCut s upload ↔ ending.isCut = false := by
    rw [← Bool.not_eq_true]
    refine not_congr ⟨?_, fun h => ⟨_, hended, h⟩⟩
    rintro ⟨phase, hphase, h⟩
    cases hended.symm.trans hphase
    exact h
  constructor
  · rw [whole_iff hsound, ← hcut]
    exact not_isCut_iff_of_run hdistinct (.init hinit) hrun hstart
  · rintro e rfl
    rw [fileStored_iff hsound, rowStored_iff hsound]
    exact ⟨Bool.false_ne_true, Bool.false_ne_true⟩

end Runs

/-! ## Uploads that fail -/

def uploadText (upload : Nat) : UploadAction :=
  .start upload ⟨some "a.txt", "text/plain"⟩ ⟨1, "law", none, "a", none, none⟩ none none false

/-- The client is gone after the first chunk. -/
def cancelledUpload : List UploadAction :=
  [uploadText 0, .read 0 (.chunk [72]) false, .read 0 .cancelled false]

/-- The file of a cancelled upload stays, without a row. -/
theorem cancelled_upload_keeps_file : ∃ s,
    (machine samplePorts sampleSettings sampleDocCode).run emptyUploads cancelledUpload = some s ∧
      s.uploads 0 = some (.ended .abandoned) ∧ FileStored sampleDocCode s 0 ∧
      ¬ RowStored sampleDocCode s 0 := by
  have hrun : ∃ s, (machine samplePorts sampleSettings sampleDocCode).run emptyUploads
      cancelledUpload = some s ∧ s.uploads 0 = some (.ended .abandoned) := ⟨_, rfl, rfl⟩
  obtain ⟨s, hrun, hended⟩ := hrun
  have hsound := phaseSound_of_reachable sampleDocCode_injective
    (Machine.Reachable.run (.init emptyUploads_init) hrun) 0
  rw [hended] at hsound
  exact ⟨s, hrun, hended, (fileStored_iff hsound).mpr rfl,
    mt (rowStored_iff hsound).mp Bool.false_ne_true⟩

/-- The step may cut off another upload only. -/
def UploadAction.spares (upload : Nat) : UploadAction → Bool
  | .read u .cancelled _ => u ≠ upload
  | .crash u => u ≠ upload
  | .register _ _ .answerLost _ => false
  | _ => true

theorem not_cuts_of_spares {settings : UploadSettings} {docCode : Nat → String} {s : UploadState}
    {upload : Nat} {a : UploadAction} (h : a.spares upload = true) :
    ¬ Cuts settings docCode upload s a := by
  intro hcuts
  cases hcuts with
  | cancelled | died => exact absurd rfl (of_decide_eq_true h)
  | answerLost => cases h

/-- Two uploads of the same text find no duplicate, and one of them meets the unique key; a third one
is cancelled. -/
def raceOfUploads : List UploadAction :=
  [uploadText 0, uploadText 1, uploadText 2, .read 0 (.chunk [72]) false,
    .read 1 (.chunk [72]) false, .read 0 (.chunk []) false, .read 1 (.chunk []) false,
    .save 0 false false, .save 1 false false, .query 0 false false, .query 1 false false,
    .read 2 .cancelled false, .register 0 0 (.committed false) false,
    .register 1 0 (.committed false) false]

def afterRace : UploadState :=
  ((machine samplePorts sampleSettings sampleDocCode).run emptyUploads raceOfUploads).getD emptyUploads

theorem afterRace_uploads : ∃ d e, afterRace.uploads 0 = some (.ended (.created d)) ∧
    afterRace.uploads 1 = some (.ended (.rejected e)) ∧
    afterRace.uploads 2 = some (.ended .abandoned) := ⟨_, _, rfl, rfl, rfl⟩

theorem raceOfUploads_removes : (machine samplePorts sampleSettings sampleDocCode).RunVia
    (fun _ a => a.unlinkRaises = false) emptyUploads raceOfUploads afterRace := .of_runWhile rfl

theorem raceOfUploads_spares : ∀ upload < 2, (machine samplePorts sampleSettings sampleDocCode).RunVia
    (fun _ a => a.spares upload = true) emptyUploads raceOfUploads afterRace
  | 0, _ => .of_runWhile rfl
  | 1, _ => .of_runWhile rfl

/-- The first upload has its file and its row, the second one neither; the file of the third stays. -/
theorem upload_whole_iff_race :
    (Whole samplePorts sampleSettings sampleDocCode afterRace 0 ∧ RowStored sampleDocCode afterRace 0) ∧
    (Whole samplePorts sampleSettings sampleDocCode afterRace 1 ∧
      ¬ FileStored sampleDocCode afterRace 1) ∧
    ¬ Whole samplePorts sampleSettings sampleDocCode afterRace 2 := by
  obtain ⟨d, e, hcreated, hrejected, habandoned⟩ := afterRace_uploads
  have hend := (upload_whole_iff sampleDocCode_injective emptyUploads_init raceOfUploads_removes).1
  obtain ⟨hwhole, -⟩ := hend 0 _ hcreated
  obtain ⟨hwhole₁, hnothing⟩ := hend 1 _ hrejected
  have hsound := phaseSound_of_reachable sampleDocCode_injective
    (Machine.Reachable.run (.init emptyUploads_init) raceOfUploads_removes.run)
  have hrow : RowStored sampleDocCode afterRace 0 := (rowStored_iff (hcreated ▸ hsound 0)).mpr rfl
  have hcut : ¬ Whole samplePorts sampleSettings sampleDocCode afterRace 2 := by
    rw [whole_iff (habandoned ▸ hsound 2)]
    decide
  refine ⟨⟨hwhole.mpr ?_, hrow⟩, ⟨hwhole₁.mpr ?_, (hnothing e rfl).1⟩, hcut⟩
  · exact (raceOfUploads_spares 0 (by decide)).mono fun _ _ => not_cuts_of_spares
  · exact (raceOfUploads_spares 1 (by decide)).mono fun _ _ => not_cuts_of_spares

end DocFlow.Upload
