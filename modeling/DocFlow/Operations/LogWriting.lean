import DocFlow.Lib.JsonLines
import DocFlow.Lib.Machine
import DocFlow.Operations.LogPages

/-!
# Writing the logs

`JsonlEventWriter.write`: an event is written on a line of the file of the day.  A call may be cut off
by a crash, and leaves the first bytes of its line.

* `textEvents_line`: a line that was written is the event that was written.
* `Undamaged.write`: what one call adds to what a scan reads.
* `written_events_returned`: a scan has every event whose call returned `True`, as long as no line is
  appended to a file whose last line is not complete.
-/

namespace DocFlow.Operations

open Text Calendar

/-! ## The writer -/

/-- `strftime("%Y-%m-%d")`. -/
def dateText (d : Date) : Text :=
  Calendar.padded 4 d.year ++ '-' :: (Calendar.padded 2 d.month ++ '-' :: Calendar.padded 2 d.day)

/-- A call of `JsonlEventWriter.write`, with what its clock says. -/
structure WriteCall where
  filePrefix : Str
  /-- `datetime.now(timezone.utc)` in `_get_log_path` -/
  pathTime : DateTime
  /-- `now_utc_iso()` -/
  createdTime : DateTime
  event : Event
  /-- the bytes that were written when the call was cut off -/
  cut : Option Nat

namespace WriteCall

/-- `f"{self.file_prefix}-{date_text}.jsonl"`. -/
def filename (call : WriteCall) : Str where
  codes := call.filePrefix.codes ++
    (str ('-' :: (dateText call.pathTime.date ++ ".jsonl".toList))).codes
  bound := by
    intro c hc
    obtain hc | hc := List.mem_append.mp hc
    · exact call.filePrefix.bound c hc
    · exact Str.bound _ c hc
  unpaired := unpaired_append_cons call.filePrefix.unpaired
    (str ('-' :: (dateText call.pathTime.date ++ ".jsonl".toList))).unpaired (by decide)

/-- `payload.setdefault("created_at", now_utc_iso())`. -/
def payload (call : WriteCall) : Event :=
  match call.event.get "created_at" with
  | some _ => call.event
  | none =>
    call.event ++ [(str "created_at".toList, .str (str (isoformat call.createdTime)))]

def line (call : WriteCall) : Text := Json.write Json.spaced (.obj call.payload) ++ ['\n']

/-- The bytes that the call leaves in the file; a surrogate cannot be encoded. -/
def bytes (call : WriteCall) : ByteArray :=
  if Json.encodes (.obj call.payload) = true then
    match call.cut with
    | none => toUtf8 call.line
    | some n => (toUtf8 call.line).extract 0 n
  else ByteArray.empty

/-- The call returns `True`, if it can open the file. -/
def returned (call : WriteCall) : Bool := Json.encodes (.obj call.payload) && call.cut.isNone

end WriteCall

/-- A file that `open(path, "a")` makes. -/
def newFile (name : Str) (bytes : ByteArray) : LogFile where
  name := name
  isSymlink := false
  isFile := true
  inDirectory := true
  content := some bytes

def LogFile.append (file : LogFile) (bytes : ByteArray) : LogFile :=
  { file with content := file.content.map (· ++ bytes) }

/-- The file of that name, if it is this one, with more bytes. -/
def LogFile.appendIf (name : Str) (bytes : ByteArray) (file : LogFile) : LogFile :=
  if file.name = name then file.append bytes else file

@[simp] theorem LogFile.name_appendIf (name : Str) (bytes : ByteArray) (file : LogFile) :
    (file.appendIf name bytes).name = file.name := by
  unfold appendIf
  split <;> rfl

def Entries.append (e : Entries) (name : Str) (bytes : ByteArray) : Entries :=
  if h : name ∈ e.files.map LogFile.name then
    { files := e.files.map (LogFile.appendIf name bytes)
      nodup := by
        rw [List.map_map]
        have hnames : (LogFile.name ∘ LogFile.appendIf name bytes) = LogFile.name :=
          funext fun file => LogFile.name_appendIf name bytes file
        rw [hnames]
        exact e.nodup }
  else
    { files := e.files ++ [newFile name bytes]
      nodup := by
        rw [List.map_append, List.map_singleton]
        exact List.Nodup.append e.nodup (List.nodup_singleton _) (List.disjoint_singleton.mpr h) }

/-- `JsonlEventWriter.write`, with the value it returns. -/
def JsonlEventWriter.write (directory : Directory) (call : WriteCall) : Bool × Directory :=
  match directory with
  | .unreadable => (call.returned, .unreadable)
  | .missing => (call.returned, .entries (Entries.append ⟨[], List.nodup_nil⟩ call.filename call.bytes))
  | .entries e =>
    -- a name that is no file cannot be opened
    if e.files.any (fun file => file.name = call.filename && !file.isFile) = true then
      (false, .entries e)
    else (call.returned, .entries (e.append call.filename call.bytes))

/-- The writers of a directory; each append is one step. -/
def JsonlEventWriter.machine : Machine Directory WriteCall where
  init _ := True
  step directory call := some (JsonlEventWriter.write directory call).2

/-! ## The events of a text -/

/-- The event of a line, if it is one with a time. -/
def eventOfLine (py : Python) (line : Text) : Option Event :=
  match Json.loads line with
  | some (.obj event) => if (Event.time py event).isSome then some event else none
  | _ => none

def textEvents (py : Python) (s : Text) : List Event := (textLines s).filterMap (eventOfLine py)

/-- A query without filters. -/
structure LogQuery.Unfiltered (q : LogQuery) : Prop where
  createdFrom : q.createdFrom = none
  createdTo : q.createdTo = none
  predicate : ∀ event, q.predicate event = some true

variable {py : Python} {q : LogQuery} {source : JsonlLogSource}

theorem LogQuery.Unfiltered.matches (h : q.Unfiltered) (event : Event) (t : DateTime) :
    q.Matches event t := by
  refine ⟨?_, ?_, h.predicate event⟩
  · rw [h.createdFrom]
    exact fun b hb => by cases hb
  · rw [h.createdTo]
    exact fun b hb => by cases hb

theorem LogQuery.Unfiltered.answers (h : q.Unfiltered) (event : Event) (instant : Int) :
    q.Answers event instant := by
  refine ⟨⟨?_, fun _ => ?_⟩, fun _ _ => ?_⟩
  · rw [h.createdFrom]
    exact fun b hb => by cases hb
  · rw [h.createdTo]
    exact fun b hb => by cases hb
  · rw [h.predicate event]
    exact Option.some_ne_none true

theorem lineEvent_event (h : q.Unfiltered) (py : Python) (source : JsonlLogSource) (filename : Str)
    (lineNumber : Nat) (line : Text) :
    (lineEvent py q source filename lineNumber line).map (·.event) = eventOfLine py line := by
  unfold lineEvent eventOfLine
  cases Json.loads line with
  | none => rfl
  | some v =>
    cases v with
    | obj event =>
      simp only
      cases Event.time py event with
      | none => rfl
      | some t =>
        simp only [if_pos (h.matches event t)]
        rfl
    | _ => rfl

/-- The events of a file. -/
def contentEvents (py : Python) (file : LogFile) : List Event :=
  ((file.content.bind ofUtf8).map (textEvents py)).getD []

theorem fileEvents_event (h : q.Unfiltered) (py : Python) (source : JsonlLogSource)
    (file : LogFile) : (fileEvents py q source file).map (·.event) = contentEvents py file := by
  unfold fileEvents contentEvents
  cases hcontent : file.content.bind ofUtf8 with
  | none => rfl
  | some s =>
    have hline : ∀ line : Text × Nat,
        (lineEvent py q source file.name line.2 line.1).map (·.event) = eventOfLine py line.1 :=
      fun line => lineEvent_event h py source file.name line.2 line.1
    simp only [List.map_filterMap, hline, Option.map_some, Option.getD_some, textEvents]
    conv_rhs => rw [← List.zipIdx_map_fst 1 (textLines s), List.filterMap_map]
    rfl

theorem textEvents_append {s : Text} (hs : Closed s) (t : Text) :
    textEvents py (s ++ t) = textEvents py s ++ textEvents py t := by
  rw [textEvents, textLines_append hs, List.filterMap_append]
  rfl

/-! ## A line -/

/-- A text without line breaks is one line. -/
theorem textLines_line {s : Text} (hs : Json.Printable s) : textLines (s ++ ['\n']) = [s ++ ['\n']] := by
  have hreturn : '\r' ∉ s ++ ['\n'] := by
    intro hmem
    obtain hmem | hmem := List.mem_append.mp hmem
    · exact absurd (hs _ hmem) (by decide)
    · exact absurd (List.mem_singleton.mp hmem) (by decide)
  have hkept : replaceChar '\r' '\n' (s ++ ['\n']) = s ++ ['\n'] := by
    rw [replaceChar]
    refine (List.map_congr_left fun c hc => ?_).trans (List.map_id _)
    have hne : c ≠ '\r' := by
      rintro rfl
      exact hreturn hc
    exact if_neg hne
  rw [textLines, replacePair_of_not_mem hreturn, hkept]
  clear hreturn hkept
  induction s with
  | nil => rfl
  | cons c s ih =>
    rw [Json.printable_cons] at hs
    have hne : ¬ (c = '\n' ∨ (c = '\r' ∧ (s ++ ['\n']).head? ≠ some '\n')) := by
      rintro (rfl | ⟨rfl, -⟩)
      · exact absurd hs.1 (by decide)
      · exact absurd hs.1 (by decide)
    rw [List.cons_append, Csv.linesOf, if_neg hne, ih hs.2]
    rfl

namespace WriteCall

variable {call : WriteCall}

theorem sound_payload (h : Json.Sound (.obj call.event)) : Json.Sound (.obj call.payload) := by
  have happend : ∀ {members : List (Str × Json)} {k : Str} {v : Json},
      Json.Sound (.obj members) → Json.Encodable k → v.Sound →
      Json.Sound (.obj (members ++ [(k, v)])) := by
    intro members k v hmembers hk hv
    induction members with
    | nil => exact ⟨hk, hv, trivial⟩
    | cons member members ih => exact ⟨hmembers.1, hmembers.2.1, ih hmembers.2.2⟩
  have hencodable : ∀ s : Text, Json.Encodable (str s) := by
    intro s c hc
    obtain ⟨ch, -, rfl⟩ := List.mem_map.mp hc
    exact (toNat_valid ch).2
  unfold payload
  split
  · exact h
  · exact happend h (hencodable _) (hencodable _)

/-- A call whose payload can be read back returns `True`, unless it is cut off. -/
theorem returned_of_sound (h : Json.Sound (.obj call.event)) (hcut : call.cut = none) :
    call.returned = true := by
  rw [returned, Json.encodes_of_sound _ (sound_payload h), hcut]
  rfl

theorem loads_line (h : Json.Sound (.obj call.event)) :
    Json.loads call.line = some (.obj call.payload) := by
  refine Json.loads_write (Json.reads_spaced (sound_payload h)) ['\n'] rfl fun c hc => ?_
  obtain rfl := Option.some.inj hc
  decide

theorem textLines_line (h : Json.Sound (.obj call.event)) : textLines call.line = [call.line] :=
  Operations.textLines_line (Json.printable_write _ (sound_payload h))

/-- **A line that was written is the event that was written.** -/
theorem textEvents_line (h : Json.Sound (.obj call.event)) {t : DateTime}
    (ht : Event.time py call.payload = some t) : textEvents py call.line = [call.payload] := by
  have hevent : eventOfLine py call.line = some call.payload := by
    rw [eventOfLine, loads_line h]
    simp only [ht, Option.isSome_some, if_true]
  rw [textEvents, textLines_line h, List.filterMap_cons_some hevent, List.filterMap_nil]

end WriteCall

/-! ## What a call adds -/

/-- The source reads the file of the call. -/
def WriteCall.IsRead (source : JsonlLogSource) (call : WriteCall) : Prop :=
  matchesPattern source.filePrefix call.filename = true

instance (source : JsonlLogSource) (call : WriteCall) : Decidable (call.IsRead source) :=
  inferInstanceAs (Decidable (_ = true))

/-- The events that the call leaves for the source: the payload, if it returned `True`, and else what
its bytes have. -/
def WriteCall.leaves (py : Python) (source : JsonlLogSource) (call : WriteCall) : List Event :=
  if call.IsRead source then
    if call.returned = true then [call.payload]
    else ((ofUtf8 call.bytes).map (textEvents py)).getD []
  else []

/-- The events of the files that the source reads. -/
def directoryEvents (py : Python) (source : JsonlLogSource) : Directory → List Event
  | .entries e => (e.files.filter (isRead source)).flatMap (contentEvents py)
  | _ => []

/-- The event has a time in the calendar, or none, and then the writer adds one. -/
def Dated (py : Python) (event : Event) : Prop :=
  event.get "created_at" = none ∨ ∃ t, Event.time py event = some t

/-- `fromisoformat` reads what `isoformat` writes. -/
def ReadsTime (py : Python) (t : DateTime) : Prop :=
  py.fromisoformat (codes (isoformat t)) = some ⟨t, some 0⟩

theorem replaceZ_of_not_mem {s : Codes} (h : 90 ∉ s) : replaceZ s = s := by
  induction s with
  | nil => rfl
  | cons c s ih =>
    rw [List.mem_cons, not_or] at h
    rw [replaceZ, List.flatMap_cons, if_neg (Ne.symm h.1)]
    exact congrArg (c :: ·) (ih h.2)

theorem not_mem_isoformat (t : DateTime) : 90 ∉ codes (isoformat t) := by
  have hpadded : ∀ k n, 90 ∉ (Calendar.padded k n).map Char.toNat := by
    intro k n
    induction k with
    | zero => exact List.not_mem_nil
    | succ k ih =>
      intro hmem
      obtain h | h := List.mem_cons.mp hmem
      · rw [toNat_digitChar _ (Nat.mod_lt _ (by omega))] at h
        omega
      · exact ih h
  have hzone : 90 ∉ "+00:00".toList.map Char.toNat := by decide
  unfold isoformat codes
  split
  · simp only [List.map_append, List.map_cons, List.mem_append, List.mem_cons, hpadded, hzone,
      false_or, or_false]
    decide
  · simp only [List.map_append, List.map_cons, List.mem_append, List.mem_cons, hpadded, hzone,
      false_or, or_false]
    decide

theorem str_codes (s : Text) : (str s).codes = codes s := rfl

theorem exists_get_of_time {event : Event} {t : DateTime} (h : Event.time py event = some t) :
    ∃ v, Event.get event "created_at" = some v := by
  unfold Event.time at h
  split at h
  · next s hs => exact ⟨_, hs⟩
  · cases h

theorem get_append_singleton (event : Event) (key : String) (v : Json) :
    Event.get (event ++ [(str key.toList, v)]) key = some v := by
  rw [Event.get, List.reverse_append]
  exact List.lookup_cons_self

theorem instant_utc (t : DateTime) : ParsedTime.instant ⟨t, some 0⟩ = t.micros := sub_zero _

theorem time_of_get {event : Event} {s : Str} {parsed : ParsedTime}
    (hget : Event.get event "created_at" = some (.str s))
    (hread : py.fromisoformat (replaceZ s.codes) = some parsed) :
    Event.time py event = utc parsed := by
  rw [Event.time, hget]
  simp only [hread, Option.bind_some]

theorem WriteCall.payload_of_none {call : WriteCall} (h : call.event.get "created_at" = none) :
    call.payload = call.event ++
      [(str "created_at".toList, .str (str (isoformat call.createdTime)))] := by
  rw [payload, h]

theorem WriteCall.payload_of_some {call : WriteCall} {v : Json}
    (h : call.event.get "created_at" = some v) : call.payload = call.event := by
  rw [payload, h]

/-- **The payload has a time.** -/
theorem WriteCall.time_payload {call : WriteCall} (hclock : ReadsTime py call.createdTime)
    (h : Dated py call.event) : ∃ t, Event.time py call.payload = some t := by
  obtain hnone | ⟨t, ht⟩ := h
  · refine ⟨call.createdTime, ?_⟩
    have hread : py.fromisoformat (replaceZ (str (isoformat call.createdTime)).codes) =
        some ⟨call.createdTime, some 0⟩ := by
      rw [str_codes, replaceZ_of_not_mem (not_mem_isoformat _)]
      exact hclock
    rw [WriteCall.payload_of_none hnone,
      time_of_get (get_append_singleton call.event "created_at" _) hread]
    exact utc_eq_some.mpr (instant_utc call.createdTime).symm
  · obtain ⟨v, hv⟩ := exists_get_of_time ht
    rw [WriteCall.payload_of_some hv]
    exact ⟨t, ht⟩

/-- **The call does no damage.**  The last line of the file of the day is complete, and the file is one
that is read.  An event that is written as a whole has a time in the calendar, and its line is not too
much for the interpreter.  What a call that is cut off leaves are whole characters, and lines that can
be read. -/
structure Undamaged (py : Python) (q : LogQuery) (source : JsonlLogSource) (directory : Directory)
    (call : WriteCall) : Prop where
  file : ∀ e, directory = .entries e → ∀ file ∈ e.files, file.name = call.filename →
    isRead source file = true ∧ ∃ s, file.content = some (toUtf8 s) ∧ Closed s
  whole : call.returned = true → Json.Sound (.obj call.event) ∧ Dated py call.event ∧
    py.exceeds call.line = false
  cut : call.returned = false →
    ∃ t, call.bytes = toUtf8 t ∧ ∀ line ∈ textLines t, LineReadable py q line

/-- The text that a call leaves. -/
theorem Undamaged.text {directory : Directory} {call : WriteCall} (hq : q.Unfiltered)
    (hclock : ReadsTime py call.createdTime) (h : Undamaged py q source directory call) :
    ∃ t, call.bytes = toUtf8 t ∧ (∀ line ∈ textLines t, LineReadable py q line) ∧
      (call.IsRead source → call.leaves py source = textEvents py t) := by
  by_cases hreturned : call.returned = true
  · obtain ⟨hsound, hdated, hwithin⟩ := h.whole hreturned
    obtain ⟨t, ht⟩ := WriteCall.time_payload hclock hdated
    refine ⟨call.line, ?_, ?_, fun hread => ?_⟩
    · rw [WriteCall.returned, Bool.and_eq_true] at hreturned
      rw [WriteCall.bytes, if_pos hreturned.1, Option.isNone_iff_eq_none.mp hreturned.2]
    · rw [WriteCall.textLines_line hsound, List.forall_mem_singleton]
      exact (lineReadable_iff hwithin (WriteCall.loads_line hsound) ht).mp
        (hq.answers _ t.micros)
    · rw [WriteCall.leaves, if_pos hread, if_pos hreturned, WriteCall.textEvents_line hsound ht]
  · obtain ⟨t, hbytes, hlines⟩ := h.cut (Bool.not_eq_true _ ▸ hreturned)
    refine ⟨t, hbytes, hlines, fun hread => ?_⟩
    rw [WriteCall.leaves, if_pos hread, if_neg hreturned, hbytes, ofUtf8_toUtf8]
    rfl

/-- A file that is read, with more lines. -/
theorem contentEvents_append {file : LogFile} {s : Text} (hcontent : file.content = some (toUtf8 s))
    (hs : Closed s) (t : Text) :
    contentEvents py (file.append (toUtf8 t)) = contentEvents py file ++ textEvents py t := by
  have hnew : (file.append (toUtf8 t)).content = some (toUtf8 (s ++ t)) := by
    rw [LogFile.append, hcontent, Option.map_some, toUtf8_append]
  unfold contentEvents
  rw [hnew, hcontent, Option.bind_some, Option.bind_some, ofUtf8_toUtf8, ofUtf8_toUtf8,
    Option.map_some, Option.map_some, Option.getD_some, Option.getD_some, textEvents_append hs]

/-- Names that are different are those of other files. -/
theorem appendIf_of_ne {name : Str} {bytes : ByteArray} {file : LogFile} (h : file.name ≠ name) :
    file.appendIf name bytes = file := if_neg h

section

variable {e : Entries} {name : Str} {bytes : ByteArray}

/-- The files after an append: the one with the name has more bytes, or is new. -/
theorem files_append (e : Entries) (name : Str) (bytes : ByteArray) :
    (∃ before file after, e.files = before ++ file :: after ∧ file.name = name ∧
        (e.append name bytes).files = before ++ file.append bytes :: after) ∨
      ((∀ file ∈ e.files, file.name ≠ name) ∧
        (e.append name bytes).files = e.files ++ [newFile name bytes]) := by
  unfold Entries.append
  split
  · next hmem =>
    obtain ⟨file, hfile, hname⟩ := List.mem_map.mp hmem
    obtain ⟨before, after, hsplit⟩ := List.append_of_mem hfile
    have hnodup := e.nodup
    rw [hsplit, List.map_append, List.map_cons, List.nodup_append, List.nodup_cons] at hnodup
    obtain ⟨-, ⟨hafter, -⟩, hdisjoint⟩ := hnodup
    refine .inl ⟨before, file, after, hsplit, hname, ?_⟩
    have hbefore : ∀ other ∈ before, other.appendIf name bytes = other := by
      intro other hother
      refine appendIf_of_ne ?_
      rw [← hname]
      exact hdisjoint _ (List.mem_map_of_mem hother) _ (List.mem_cons_self ..)
    have hbehind : ∀ other ∈ after, other.appendIf name bytes = other := by
      intro other hother
      refine appendIf_of_ne fun heq => hafter ?_
      rw [hname, ← heq]
      exact List.mem_map_of_mem hother
    simp only [hsplit, List.map_append, List.map_cons]
    rw [List.map_congr_left hbefore, List.map_congr_left hbehind, List.map_id', List.map_id',
      LogFile.appendIf, if_pos hname]
  · next hmem =>
    refine .inr ⟨fun file hfile heq => hmem ?_, rfl⟩
    rw [← heq]
    exact List.mem_map_of_mem hfile

/-- **An append adds its events to those of the directory.** -/
theorem directoryEvents_append {t : Text}
    (hfile : ∀ file ∈ e.files, file.name = name →
      isRead source file = true ∧ ∃ s, file.content = some (toUtf8 s) ∧ Closed s)
    (hname : matchesPattern source.filePrefix name = true) :
    (directoryEvents py source (.entries (e.append name (toUtf8 t)))).Perm
      (directoryEvents py source (.entries e) ++ textEvents py t) := by
  simp only [directoryEvents]
  obtain ⟨before, file, after, hsplit, hnamed, hfiles⟩ | ⟨-, hfiles⟩ :=
    files_append e name (toUtf8 t)
  · obtain ⟨hread, s, hcontent, hs⟩ :=
      hfile file (hsplit ▸ List.mem_append_right _ (List.mem_cons_self ..)) hnamed
    have hread' : isRead source (file.append (toUtf8 t)) = true := hread
    rw [hfiles, hsplit, List.filter_append, List.filter_append, List.filter_cons_of_pos hread,
      List.filter_cons_of_pos hread', List.flatMap_append, List.flatMap_append, List.flatMap_cons,
      List.flatMap_cons, contentEvents_append hcontent hs]
    simp only [List.append_assoc]
    exact (List.perm_append_comm.append_left _).append_left _
  · have hread : isRead source (newFile name (toUtf8 t)) = true := by
      simp only [isRead, newFile, hname]
      rfl
    have hevents : contentEvents py (newFile name (toUtf8 t)) = textEvents py t := by
      unfold contentEvents
      rw [newFile, Option.bind_some, ofUtf8_toUtf8]
      rfl
    rw [hfiles, List.filter_append, List.filter_cons_of_pos hread, List.filter_nil,
      List.flatMap_append, List.flatMap_cons, List.flatMap_nil, List.append_nil, hevents]

/-- A file that is not read has no events. -/
theorem directoryEvents_append_of_not (hname : ¬ matchesPattern source.filePrefix name = true) :
    directoryEvents py source (.entries (e.append name bytes)) =
      directoryEvents py source (.entries e) := by
  have hread : ∀ file : LogFile, file.name = name → isRead source file = false := by
    rintro file rfl
    rw [isRead, Bool.eq_false_iff.mpr hname]
    rfl
  simp only [directoryEvents]
  obtain ⟨before, file, after, hsplit, hnamed, hfiles⟩ | ⟨-, hfiles⟩ := files_append e name bytes
  · have hnot := Bool.eq_false_iff.mp (hread file hnamed)
    have hnot' := Bool.eq_false_iff.mp (hread (file.append bytes) hnamed)
    rw [hfiles, hsplit, List.filter_append, List.filter_append, List.filter_cons_of_neg hnot,
      List.filter_cons_of_neg hnot']
  · have hnot := Bool.eq_false_iff.mp (hread (newFile name bytes) rfl)
    rw [hfiles, List.filter_append, List.filter_cons_of_neg hnot, List.filter_nil, List.append_nil]

end

theorem readable_entries_iff {e : Entries} : Readable py [source] (fun _ => .entries e) q ↔
    ∀ file ∈ e.files, isRead source file = true → FileReadable py q file := by
  unfold Readable
  rw [List.forall_mem_singleton]
  constructor
  · exact fun h file hmem hread => h.2 file (mem_sourceFiles.mpr ⟨e, rfl, hmem, hread⟩)
  · refine fun h => ⟨fun heq => (by cases heq), fun file hmem => ?_⟩
    obtain ⟨e', he', hmem, hread⟩ := mem_sourceFiles.mp hmem
    obtain rfl := Directory.entries.inj he'
    exact h file hmem hread

section

variable {e : Entries} {name : Str}

/-- **The lines of the files stay readable.** -/
theorem readable_append {t : Text} (hread : Readable py [source] (fun _ => .entries e) q)
    (hfile : ∀ file ∈ e.files, file.name = name →
      isRead source file = true ∧ ∃ s, file.content = some (toUtf8 s) ∧ Closed s)
    (hlines : ∀ line ∈ textLines t, LineReadable py q line) :
    Readable py [source] (fun _ => .entries (e.append name (toUtf8 t))) q := by
  rw [readable_entries_iff] at hread ⊢
  intro file hmem hisRead
  obtain ⟨before, named, after, hsplit, hnamed, hfiles⟩ | ⟨-, hfiles⟩ :=
    files_append e name (toUtf8 t)
  · rw [hfiles] at hmem
    rw [hsplit] at hread hfile
    obtain hmem | hmem := List.mem_append.mp hmem
    · exact hread file (List.mem_append_left _ hmem) hisRead
    · obtain rfl | hmem := List.mem_cons.mp hmem
      · have hin : named ∈ before ++ named :: after :=
          List.mem_append_right _ (List.mem_cons_self ..)
        obtain ⟨hnamedRead, s, hcontent, hs⟩ := hfile named hin hnamed
        obtain ⟨bytes, s', hbytes, hs', hold⟩ := hread named hin hnamedRead
        rw [hcontent] at hbytes
        obtain rfl := Option.some.inj hbytes
        rw [ofUtf8_toUtf8] at hs'
        obtain rfl := Option.some.inj hs'
        refine ⟨toUtf8 (s ++ t), s ++ t, ?_, ofUtf8_toUtf8 _, fun line hline => ?_⟩
        · rw [LogFile.append, hcontent, Option.map_some, toUtf8_append]
        · rw [textLines_append hs] at hline
          obtain hline | hline := List.mem_append.mp hline
          · exact hold line hline
          · exact hlines line hline
      · exact hread file (List.mem_append_right _ (List.mem_cons_of_mem _ hmem)) hisRead
  · rw [hfiles] at hmem
    obtain hmem | hmem := List.mem_append.mp hmem
    · exact hread file hmem hisRead
    · obtain rfl := List.mem_singleton.mp hmem
      exact ⟨toUtf8 t, t, rfl, ofUtf8_toUtf8 t, hlines⟩

theorem readable_append_of_not {bytes : ByteArray}
    (hread : Readable py [source] (fun _ => .entries e) q)
    (hname : ¬ matchesPattern source.filePrefix name = true) :
    Readable py [source] (fun _ => .entries (e.append name bytes)) q := by
  have hnot : ∀ file : LogFile, file.name = name → isRead source file = true → False := by
    rintro file rfl hisRead
    simp only [isRead, Bool.and_eq_true] at hisRead
    exact hname hisRead.1.1.1
  rw [readable_entries_iff] at hread ⊢
  intro file hmem hisRead
  obtain ⟨before, named, after, hsplit, hnamed, hfiles⟩ | ⟨-, hfiles⟩ := files_append e name bytes
  · rw [hfiles] at hmem
    rw [hsplit] at hread
    obtain hmem | hmem := List.mem_append.mp hmem
    · exact hread file (List.mem_append_left _ hmem) hisRead
    · obtain rfl | hmem := List.mem_cons.mp hmem
      · exact (hnot _ hnamed hisRead).elim
      · exact hread file (List.mem_append_right _ (List.mem_cons_of_mem _ hmem)) hisRead
  · rw [hfiles] at hmem
    obtain hmem | hmem := List.mem_append.mp hmem
    · exact hread file hmem hisRead
    · obtain rfl := List.mem_singleton.mp hmem
      exact (hnot _ rfl hisRead).elim

end

/-! ## Runs of the writers -/

/-- What the source has to be told before a call. -/
def Spared (py : Python) (q : LogQuery) (source : JsonlLogSource) (directory : Directory)
    (call : WriteCall) : Prop :=
  call.IsRead source → Undamaged py q source directory call

/-- **One call adds what it leaves.** -/
theorem Spared.write {directory : Directory} {call : WriteCall} (hq : q.Unfiltered)
    (hclock : ReadsTime py call.createdTime) (hread : Readable py [source] (fun _ => directory) q)
    (h : Spared py q source directory call) :
    Readable py [source] (fun _ => (JsonlEventWriter.write directory call).2) q ∧
      (directoryEvents py source (JsonlEventWriter.write directory call).2).Perm
        (directoryEvents py source directory ++ call.leaves py source) := by
  have hentries : ∀ e : Entries, Readable py [source] (fun _ => .entries e) q →
      (∀ file ∈ e.files, call.IsRead source → file.name = call.filename →
        isRead source file = true ∧ ∃ s, file.content = some (toUtf8 s) ∧ Closed s) →
      Readable py [source] (fun _ => .entries (e.append call.filename call.bytes)) q ∧
        (directoryEvents py source (.entries (e.append call.filename call.bytes))).Perm
          (directoryEvents py source (.entries e) ++ call.leaves py source) := by
    intro e hread hfile
    by_cases hcall : call.IsRead source
    · obtain ⟨t, hbytes, hlines, hleaves⟩ := (h hcall).text hq hclock
      have hfile := fun file hmem hname => hfile file hmem hcall hname
      rw [hbytes, hleaves hcall]
      exact ⟨readable_append hread hfile hlines, directoryEvents_append hfile hcall⟩
    · rw [directoryEvents_append_of_not hcall, WriteCall.leaves, if_neg hcall, List.append_nil]
      exact ⟨readable_append_of_not hread hcall, List.Perm.refl _⟩
  cases directory with
  | missing =>
    have hempty : Readable py [source] (fun _ => .entries ⟨[], List.nodup_nil⟩) q :=
      readable_entries_iff.mpr (List.forall_mem_nil _)
    exact hentries _ hempty (List.forall_mem_nil _)
  | unreadable => exact absurd rfl (hread source (List.mem_singleton.mpr rfl)).1
  | entries e =>
    have hfile : ∀ file ∈ e.files, call.IsRead source → file.name = call.filename →
        isRead source file = true ∧ ∃ s, file.content = some (toUtf8 s) ∧ Closed s :=
      fun file hmem hcall => (h hcall).file e rfl file hmem
    unfold JsonlEventWriter.write
    by_cases hopen : e.files.any (fun file => file.name = call.filename && !file.isFile) = true
    · have hcall : ¬ call.IsRead source := by
        intro hcall
        obtain ⟨file, hmem, hnamed⟩ := List.any_eq_true.mp hopen
        rw [Bool.and_eq_true, decide_eq_true_eq] at hnamed
        obtain ⟨hisRead, -⟩ := hfile file hmem hcall hnamed.1
        simp only [isRead, Bool.and_eq_true] at hisRead
        rw [hisRead.1.2] at hnamed
        cases hnamed.2
      simp only [if_pos hopen]
      rw [WriteCall.leaves, if_neg hcall, List.append_nil]
      exact ⟨hread, List.Perm.refl _⟩
    · simp only [if_neg hopen]
      exact hentries e hread hfile

/-- **A run adds what its calls leave.** -/
theorem run_events {directory directory' : Directory} {calls : List WriteCall} (hq : q.Unfiltered)
    (hclock : ∀ call ∈ calls, ReadsTime py call.createdTime)
    (hread : Readable py [source] (fun _ => directory) q)
    (hrun : JsonlEventWriter.machine.RunVia (Spared py q source) directory calls directory') :
    Readable py [source] (fun _ => directory') q ∧
      (directoryEvents py source directory').Perm
        (directoryEvents py source directory ++ calls.flatMap (WriteCall.leaves py source)) := by
  induction hrun with
  | nil directory =>
    rw [List.flatMap_nil, List.append_nil]
    exact ⟨hread, List.Perm.refl _⟩
  | cons hspared hstep _ ih =>
    obtain rfl := Option.some.inj hstep
    rw [List.forall_mem_cons] at hclock
    obtain ⟨hread', hperm⟩ := hspared.write hq hclock.1 hread
    obtain ⟨hread'', hperm'⟩ := ih hclock.2 hread'
    refine ⟨hread'', hperm'.trans ?_⟩
    rw [List.flatMap_cons, ← List.append_assoc]
    exact hperm.append_right _

/-! ## The scan -/

theorem matching_events (py : Python) (source : JsonlLogSource) (hq : q.Unfiltered)
    (directory : Directory) :
    ((matching py [source] (fun _ => directory) q).map (·.event)).Perm
      (directoryEvents py source directory) := by
  have hfile : ∀ files : List LogFile, ((files.filter (isRead source)).flatMap
      (fileEvents py q source)).map (·.event) =
        (files.filter (isRead source)).flatMap (contentEvents py) := by
    intro files
    rw [List.map_flatMap]
    exact List.flatMap_congr fun file _ => fileEvents_event hq py source file
  unfold matching sourceFiles
  rw [List.flatMap_cons, List.flatMap_nil, List.append_nil]
  cases directory with
  | missing => exact List.Perm.refl _
  | unreadable => exact List.Perm.refl _
  | entries e =>
    simp only [hfile, directoryEvents]
    exact ((sortedBy_perm LogFile.name e.files).filter _).flatMap_right _

/-- A page that is long enough has every event. -/
theorem scan_all {directory : Directory} (hq : q.Unfiltered)
    (hread : Readable py [source] (fun _ => directory) q) (hlimit : 1 ≤ q.limit)
    (hlength : (directoryEvents py source directory).length ≤ q.limit) :
    ∃ page, scan py [source] (fun _ => directory) q none = .ok page ∧ page.nextCursor = none ∧
      page.events.Perm (directoryEvents py source directory) := by
  have hperm := matching_events py source hq directory
  have hordered := inOrder_perm q.ascending (matching py [source] (fun _ => directory) q)
  have hshort : (inOrder q.ascending (matching py [source] (fun _ => directory) q)).length ≤
      q.limit := by
    have hsame := hperm.length_eq
    rw [List.length_map] at hsame
    rw [hordered.length_eq, hsame]
    exact hlength
  have hscan := scan_eq py [source] (fun _ => directory) hlimit
    (show positionOf [source] q.ascending none = .ok none from rfl)
  refine ⟨⟨_, none⟩, ?_, rfl, (hordered.map (·.event)).trans hperm⟩
  rw [hscan, (yields_readSources py [source] (fun _ => directory) q).1 hread, Except.map,
    scanPage_pageOf]
  simp only [behindCursor, List.take_of_length_le (hshort.trans (Nat.le_succ q.limit)),
    List.take_of_length_le hshort, if_neg (not_lt.mpr hshort)]

/-- **The scan returns what was written.**  In a run of the writers that does no damage, a scan without
filters has the events that were there at the start, and of each call the event that it wrote, if it
returned `True`; apart from these only what is left of the calls that were cut off. -/
theorem written_events_returned (py : Python) (source : JsonlLogSource) (q : LogQuery)
    (hq : q.Unfiltered) {directory directory' : Directory} {calls : List WriteCall}
    (hclock : ∀ call ∈ calls, ReadsTime py call.createdTime)
    (hread : Readable py [source] (fun _ => directory) q)
    (hrun : JsonlEventWriter.machine.RunVia (Spared py q source) directory calls directory')
    (hlimit : 1 ≤ q.limit) (hlength : (directoryEvents py source directory').length ≤ q.limit) :
    ∃ page, scan py [source] (fun _ => directory') q none = .ok page ∧ page.nextCursor = none ∧
      page.events.Perm
        (directoryEvents py source directory ++ calls.flatMap (WriteCall.leaves py source)) := by
  obtain ⟨hread', hperm⟩ := run_events hq hclock hread hrun
  obtain ⟨page, hpage, hnext, hevents⟩ := scan_all hq hread' hlimit hlength
  exact ⟨page, hpage, hnext, hevents.trans hperm⟩

/-! ## A line that is cut off -/

/-- A call that is cut off behind the first byte of its line. -/
def cutCall : WriteCall where
  filePrefix := str "log".toList
  pathTime := newYear
  createdTime := newYear
  event := [(str "event".toList, .str (str "a".toList))]
  cut := some 1

def nextCall : WriteCall where
  filePrefix := str "log".toList
  pathTime := newYear
  createdTime := newYear
  event := [(str "event".toList, .str (str "b".toList))]
  cut := none

theorem cutCall_bytes : cutCall.bytes = toUtf8 [Json.openBrace] := rfl

theorem isRead_sample : cutCall.IsRead sampleSource ∧ nextCall.IsRead sampleSource := by
  constructor <;> exact of_decide_eq_true rfl

theorem unfiltered_sampleQuery : sampleQuery.Unfiltered := ⟨rfl, rfl, fun _ => rfl⟩

theorem readsTime_newYear : ReadsTime samplePython newYear := by
  unfold ReadsTime
  rfl

theorem textEvents_openBrace : textEvents samplePython [Json.openBrace] = [] :=
  List.isEmpty_iff.mp rfl

/-- A call, and then one that is cut off. -/
theorem sample_run : JsonlEventWriter.machine.RunVia (Spared samplePython sampleQuery sampleSource)
    .missing [nextCall, cutCall]
    (JsonlEventWriter.write (JsonlEventWriter.write .missing nextCall).2 cutCall).2 := by
  have hsound : Json.Sound (.obj nextCall.event) :=
    ⟨by decide, (by decide : Json.Encodable (str "b".toList)), trivial⟩
  have hreturned := WriteCall.returned_of_sound hsound rfl
  have hcut : cutCall.returned = false := rfl
  have hnext : Undamaged samplePython sampleQuery sampleSource .missing nextCall :=
    { file := fun e he => by cases he
      whole := fun _ => ⟨hsound, .inl rfl, rfl⟩
      cut := fun h => by rw [hreturned] at h; cases h }
  have hfirst : (JsonlEventWriter.write .missing nextCall).2 =
      .entries ⟨[newFile nextCall.filename (toUtf8 nextCall.line)], List.nodup_singleton _⟩ := rfl
  have hlast : Undamaged samplePython sampleQuery sampleSource
      (JsonlEventWriter.write .missing nextCall).2 cutCall := by
    refine { file := fun e he file hfile _ => ?_, whole := fun h => ?_, cut := fun _ => ?_ }
    · rw [hfirst] at he
      obtain rfl := Directory.entries.inj he
      obtain rfl := List.mem_singleton.mp hfile
      exact ⟨of_decide_eq_true rfl, _, rfl, closed_append_newline _⟩
    · rw [hcut] at h
      cases h
    · refine ⟨_, cutCall_bytes, ?_⟩
      have hline : textLines [Json.openBrace] = [[Json.openBrace]] := rfl
      have hnone : Json.loads [Json.openBrace] = none := rfl
      rw [hline, List.forall_mem_singleton]
      refine lineReadable_of_time_none rfl fun event s parsed h => ?_
      rw [hnone] at h
      cases h
  exact .cons (fun _ => hnext) rfl (.cons (fun _ => hlast) rfl (.nil _))

theorem leaves_sample : [nextCall, cutCall].flatMap (WriteCall.leaves samplePython sampleSource) =
    [nextCall.payload] := by
  have hreturned : nextCall.returned = true := rfl
  have hcut : ¬ cutCall.returned = true := fun h => by cases h
  have hnext : nextCall.leaves samplePython sampleSource = [nextCall.payload] := by
    rw [WriteCall.leaves, if_pos isRead_sample.2, if_pos hreturned]
  have hlast : cutCall.leaves samplePython sampleSource = [] := by
    rw [WriteCall.leaves, if_pos isRead_sample.1, if_neg hcut, cutCall_bytes, ofUtf8_toUtf8,
      Option.map_some, Option.getD_some, textEvents_openBrace]
  rw [List.flatMap_cons, List.flatMap_cons, List.flatMap_nil, hnext, hlast]
  rfl

theorem written_events_returned_sample : ∃ page, scan samplePython [sampleSource]
    (fun _ => (JsonlEventWriter.write (JsonlEventWriter.write .missing nextCall).2 cutCall).2)
    sampleQuery none = .ok page ∧ page.nextCursor = none ∧
    page.events.Perm (directoryEvents samplePython sampleSource .missing ++
      [nextCall, cutCall].flatMap (WriteCall.leaves samplePython sampleSource)) := by
  have hclock : ∀ call ∈ [nextCall, cutCall], ReadsTime samplePython call.createdTime := by
    rw [List.forall_mem_cons, List.forall_mem_singleton]
    exact ⟨readsTime_newYear, readsTime_newYear⟩
  have hread : Readable samplePython [sampleSource] (fun _ => .missing) sampleQuery := by
    unfold Readable
    rw [List.forall_mem_singleton]
    exact ⟨fun h => (by cases h), List.forall_mem_nil _⟩
  have hevents := (run_events unfiltered_sampleQuery hclock hread sample_run).2
  rw [leaves_sample] at hevents
  exact written_events_returned samplePython sampleSource sampleQuery unfiltered_sampleQuery hclock
    hread sample_run (by decide) (hevents.length_eq.trans_le (by decide))

/-- The directory behind both calls. -/
def cutDirectory : Directory :=
  (JsonlEventWriter.write (JsonlEventWriter.write .missing cutCall).2 nextCall).2

/-- The second line begins in the first one. -/
theorem files_cutDirectory : ∃ nodup, cutDirectory = .entries
    ⟨[newFile cutCall.filename (toUtf8 (Json.openBrace :: nextCall.line))], nodup⟩ := by
  have hbytes : cutCall.bytes ++ nextCall.bytes = toUtf8 (Json.openBrace :: nextCall.line) := by
    have hnext : nextCall.bytes = toUtf8 nextCall.line := rfl
    rw [cutCall_bytes, hnext, ← toUtf8_append]
    rfl
  have hdirectory : ∃ nodup, cutDirectory = .entries
      ⟨[newFile cutCall.filename (cutCall.bytes ++ nextCall.bytes)], nodup⟩ := ⟨_, rfl⟩
  rw [hbytes] at hdirectory
  exact hdirectory

/-- The two lines are one, and it is no JSON. -/
theorem loads_cut : textLines (Json.openBrace :: nextCall.line) = [Json.openBrace :: nextCall.line] ∧
    Json.loads (Json.openBrace :: nextCall.line) = none :=
  ⟨rfl, rfl⟩

/-- **The call returned `True`, and its event is lost**, behind a line that was cut off. -/
theorem cut_line_swallows_next :
    (JsonlEventWriter.write .missing cutCall).1 = false ∧
      (JsonlEventWriter.write (JsonlEventWriter.write .missing cutCall).2 nextCall).1 = true ∧
      ∃ page, scan samplePython [sampleSource] (fun _ => cutDirectory) sampleQuery none = .ok page ∧
        page.events = [] := by
  refine ⟨rfl, rfl, ?_⟩
  obtain ⟨nodup, hdirectory⟩ := files_cutDirectory
  obtain ⟨hlines, hloads⟩ := loads_cut
  have hread : Readable samplePython [sampleSource] (fun _ => cutDirectory) sampleQuery := by
    rw [hdirectory, readable_entries_iff, List.forall_mem_singleton]
    refine fun _ => ⟨_, _, rfl, ofUtf8_toUtf8 _, ?_⟩
    rw [hlines, List.forall_mem_singleton]
    refine lineReadable_of_time_none rfl fun event s parsed h => ?_
    rw [hloads] at h
    cases h
  have hnone : directoryEvents samplePython sampleSource cutDirectory = [] := by
    have hevents : contentEvents samplePython
        (newFile cutCall.filename (toUtf8 (Json.openBrace :: nextCall.line))) = [] := by
      unfold contentEvents
      rw [newFile, Option.bind_some, ofUtf8_toUtf8, Option.map_some, Option.getD_some, textEvents,
        hlines, List.filterMap_cons_none, List.filterMap_nil]
      rw [eventOfLine, hloads]
    rw [hdirectory, directoryEvents, List.flatMap_eq_nil_iff]
    intro file hfile
    rw [List.mem_singleton.mp (List.mem_filter.mp hfile).1]
    exact hevents
  obtain ⟨page, hpage, -, hevents⟩ := scan_all unfiltered_sampleQuery hread (by decide) (by rw [hnone]; decide)
  rw [hnone] at hevents
  exact ⟨page, hpage, hevents.eq_nil⟩

end DocFlow.Operations
