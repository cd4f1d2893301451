import DocFlow.Operations.JsonlLogs

/-!
# What a scan reads

The events of the files, line by line, as a function that never fails (`matching`), and when the scan
reads them: every line that is given to it must be one that the interpreter can take, with a time that
there is in UTC, and the filter must not raise on its event (`Readable`).

* `yields_readLine`, `yields_readSources`: the code reads these events, or fails.
* `scan_eq`: a page of the scan in terms of `Paging.page`.
* `scan_exact_iff`: the scan answers with a page of the matching events exactly when the files are
  readable.
-/

namespace DocFlow.Operations

open Text Calendar

/-! ## Reading or failing -/

/-- The computation gives `a` if `p` holds, and fails if not. -/
def Yields {ε α : Type} (p : Prop) (x : Except ε α) (a : α) : Prop :=
  (p → x = .ok a) ∧ (¬ p → ∃ e, x = .error e)

theorem Yields.bind {ε α β γ : Type} {p p' : Prop} {x : Except ε α} {y : Except ε β} {a : α} {b : β}
    (hx : Yields p x a) (hy : Yields p' y b) (f : α → β → γ) :
    Yields (p ∧ p') (do
      let u ← x
      let v ← y
      return f u v) (f a b) := by
  refine ⟨fun h => ?_, fun h => ?_⟩
  · rw [hx.1 h.1, hy.1 h.2]
    rfl
  · by_cases hp : p
    · obtain ⟨e, he⟩ := hy.2 fun hp' => h ⟨hp, hp'⟩
      exact ⟨e, by rw [hx.1 hp, he]; rfl⟩
    · obtain ⟨e, he⟩ := hx.2 hp
      exact ⟨e, by rw [he]; rfl⟩

theorem Yields.congr {ε α : Type} {p p' : Prop} {x : Except ε α} {a : α} (h : Yields p x a)
    (hiff : p ↔ p') : Yields p' x a :=
  ⟨fun hp => h.1 (hiff.mpr hp), fun hp => h.2 fun hp' => hp (hiff.mp hp')⟩

/-! ## Times -/

/-- In UTC the time is one of the years 1 to 9999. -/
def InCalendar (parsed : ParsedTime) : Prop := ∃ t : DateTime, (t.micros : Int) = parsed.instant

theorem utc_eq_some {parsed : ParsedTime} {t : DateTime} :
    utc parsed = some t ↔ (t.micros : Int) = parsed.instant := by
  unfold utc ParsedTime.instant
  cases parsed.offset with
  | none =>
    rw [Option.some.injEq, Option.getD_none, sub_zero, Int.natCast_inj, micros_inj]
    exact eq_comm
  | some offset => exact ofMicros_eq_some

theorem utc_eq_none {parsed : ParsedTime} : utc parsed = none ↔ ¬ InCalendar parsed := by
  rw [Option.eq_none_iff_forall_ne_some, InCalendar, not_exists]
  exact forall_congr' fun t => not_congr utc_eq_some

/-- The time of an event. -/
def Event.time (py : Python) (event : Event) : Option DateTime :=
  match event.get "created_at" with
  | some (.str s) => (py.fromisoformat (replaceZ s.codes)).bind utc
  | _ => none

/-! ## Lines -/

/-- The event is in the range of the query, and it matches. -/
def LogQuery.Matches (q : LogQuery) (event : Event) (t : DateTime) : Prop :=
  (∀ b ∈ q.createdFrom, b.instant ≤ t.micros) ∧ (∀ b ∈ q.createdTo, t.micros ≤ b.instant) ∧
    q.predicate event = some true

instance (q : LogQuery) (event : Event) (t : DateTime) : Decidable (q.Matches event t) :=
  inferInstanceAs (Decidable (_ ∧ _ ∧ _))

/-- The event of a line, if it is one and matches. -/
def lineEvent (py : Python) (q : LogQuery) (source : JsonlLogSource) (filename : Str)
    (lineNumber : Nat) (line : Text) : Option IndexedEvent :=
  match Json.loads line with
  | some (.obj event) =>
    match Event.time py event with
    | some t =>
      if q.Matches event t then some (indexEvent py source filename lineNumber event t) else none
    | none => none
  | _ => none

/-- The bounds that are compared with an event at this instant can be converted. -/
def LogQuery.BoundsReadable (q : LogQuery) (instant : Int) : Prop :=
  (∀ b ∈ q.createdFrom, InCalendar b) ∧
    ((∀ b ∈ q.createdFrom, b.instant ≤ instant) → ∀ b ∈ q.createdTo, InCalendar b)

/-- The query can be asked about an event at this instant: the bounds can be converted, and the filter
does not raise on an event between them. -/
structure LogQuery.Answers (q : LogQuery) (event : Event) (instant : Int) : Prop where
  bounds : q.BoundsReadable instant
  filter : (∀ b ∈ q.createdFrom, b.instant ≤ instant) → (∀ b ∈ q.createdTo, instant ≤ b.instant) →
    q.predicate event ≠ none

/-- The interpreter can take the line, its time, if it has one, can be converted to UTC, and the query
can be asked about its event. -/
structure LineReadable (py : Python) (q : LogQuery) (line : Text) : Prop where
  within : py.exceeds line = false
  time : ∀ (event : Event) (s : Str) (parsed : ParsedTime), Json.loads line = some (.obj event) →
    event.get "created_at" = some (.str s) → py.fromisoformat (replaceZ s.codes) = some parsed →
    InCalendar parsed ∧ q.Answers event parsed.instant

/-- What the code makes of the time of an event. -/
theorem parseDatetime_cases (py : Python) (event : Event) :
    (parseDatetime py (event.get "created_at") = .ok (event.time py) ∧
      ∀ s parsed, event.get "created_at" = some (.str s) →
        py.fromisoformat (replaceZ s.codes) = some parsed →
        ∃ t, event.time py = some t ∧ (t.micros : Int) = parsed.instant) ∨
    (parseDatetime py (event.get "created_at") = .error .overflow ∧
      ∃ s parsed, event.get "created_at" = some (.str s) ∧
        py.fromisoformat (replaceZ s.codes) = some parsed ∧ ¬ InCalendar parsed) := by
  unfold parseDatetime Event.time
  cases hget : event.get "created_at" with
  | none => exact .inl ⟨rfl, fun s parsed h => by cases h⟩
  | some value =>
    cases value with
    | str s =>
      simp only
      cases hparsed : py.fromisoformat (replaceZ s.codes) with
      | none =>
        refine .inl ⟨rfl, fun s' parsed hs hp => ?_⟩
        cases hs
        rw [hparsed] at hp
        cases hp
      | some parsed =>
        simp only [Option.bind_some]
        cases hutc : utc parsed with
        | none => exact .inr ⟨rfl, s, parsed, rfl, hparsed, utc_eq_none.mp hutc⟩
        | some t =>
          refine .inl ⟨rfl, fun s' parsed' hs hp => ?_⟩
          cases hs
          rw [hparsed] at hp
          cases hp
          exact ⟨t, rfl, utc_eq_some.mp hutc⟩
    | _ => exact .inl ⟨rfl, fun s parsed h => by cases h⟩

theorem yields_outside (bound : Option ParsedTime) (test : DateTime → Bool) (test' : Int → Bool)
    (h : ∀ t : DateTime, test t = test' t.micros) :
    Yields (∀ b ∈ bound, InCalendar b) (outside bound test)
      (bound.elim false fun b => test' b.instant) := by
  cases bound with
  | none => exact ⟨fun _ => rfl, fun hnot => absurd (fun b hb => by cases hb) hnot⟩
  | some parsed =>
    have hall : (∀ b ∈ some parsed, InCalendar b) ↔ InCalendar parsed := by simp
    refine Yields.congr ?_ hall.symm
    unfold outside
    cases hutc : utc parsed with
    | none =>
      have hnot := utc_eq_none.mp hutc
      exact ⟨fun hin => absurd hin hnot, fun _ => ⟨.overflow, by simp only [hutc]⟩⟩
    | some t =>
      have ht := utc_eq_some.mp hutc
      refine ⟨fun _ => ?_, fun hnot => absurd ⟨t, ht⟩ hnot⟩
      simp only [hutc, h t, ht, Option.elim_some]

/-- The tests of an event with a time. -/
theorem yields_tests (q : LogQuery) (indexed : IndexedEvent) (t : DateTime) :
    Yields (q.Answers indexed.event t.micros)
      (do
        if ← outside q.createdFrom fun u => t.micros < u.micros then return none
        else if ← outside q.createdTo fun u => u.micros < t.micros then return none
        else
          match q.predicate indexed.event with
          | none => throw .unhashable
          | some true => return some indexed
          | some false => return none)
      (if q.Matches indexed.event t then some indexed else none) := by
  have hfrom := yields_outside q.createdFrom (fun u => t.micros < u.micros)
    (fun i => (t.micros : Int) < i) fun u => by simp
  have hto := yields_outside q.createdTo (fun u => u.micros < t.micros)
    (fun i => i < (t.micros : Int)) fun u => by simp
  have hfromIff : (q.createdFrom.elim false fun b => decide ((t.micros : Int) < b.instant)) = false ↔
      ∀ b ∈ q.createdFrom, b.instant ≤ t.micros := by
    cases q.createdFrom <;> simp
  have htoIff : (q.createdTo.elim false fun b => decide (b.instant < (t.micros : Int))) = false ↔
      ∀ b ∈ q.createdTo, (t.micros : Int) ≤ b.instant := by
    cases q.createdTo <;> simp
  by_cases hreadFrom : ∀ b ∈ q.createdFrom, InCalendar b
  · rw [hfrom.1 hreadFrom]
    by_cases hle : ∀ b ∈ q.createdFrom, b.instant ≤ t.micros
    · rw [hfromIff.mpr hle]
      by_cases hreadTo : ∀ b ∈ q.createdTo, InCalendar b
      · rw [hto.1 hreadTo]
        have hbounds : q.BoundsReadable t.micros := ⟨hreadFrom, fun _ => hreadTo⟩
        by_cases hge : ∀ b ∈ q.createdTo, (t.micros : Int) ≤ b.instant
        · rw [htoIff.mpr hge]
          -- the filter is asked
          cases hpred : q.predicate indexed.event with
          | none => exact ⟨fun h => absurd hpred (h.filter hle hge), fun _ => ⟨.unhashable, rfl⟩⟩
          | some answer =>
            have hanswers : q.Answers indexed.event t.micros :=
              ⟨hbounds, fun _ _ h => by rw [hpred] at h; cases h⟩
            refine ⟨fun _ => ?_, fun hnot => absurd hanswers hnot⟩
            cases answer with
            | true =>
              have hmatch : q.Matches indexed.event t := ⟨hle, hge, hpred⟩
              rw [if_pos hmatch]
              rfl
            | false =>
              have hno : ¬ q.Matches indexed.event t := by
                rintro ⟨-, -, htrue⟩
                rw [hpred] at htrue
                cases htrue
              rw [if_neg hno]
              rfl
        · rw [eq_true_of_ne_false (mt htoIff.mp hge),
            if_neg fun hmatch : q.Matches indexed.event t => hge hmatch.2.1]
          exact ⟨fun _ => rfl, fun hnot => absurd ⟨hbounds, fun _ h => absurd h hge⟩ hnot⟩
      · obtain ⟨e, he⟩ := hto.2 hreadTo
        exact ⟨fun h => absurd (h.bounds.2 hle) hreadTo, fun _ => ⟨e, by rw [he]; rfl⟩⟩
    · rw [eq_true_of_ne_false (mt hfromIff.mp hle),
        if_neg fun hmatch : q.Matches indexed.event t => hle hmatch.1]
      have hanswers : q.Answers indexed.event t.micros :=
        ⟨⟨hreadFrom, fun h => absurd h hle⟩, fun h => absurd h hle⟩
      exact ⟨fun _ => rfl, fun hnot => absurd hanswers hnot⟩
  · obtain ⟨e, he⟩ := hfrom.2 hreadFrom
    exact ⟨fun h => absurd h.bounds.1 hreadFrom, fun _ => ⟨e, by rw [he]; rfl⟩⟩

/-- A line with an event that has a time is readable when the query can be asked about it. -/
theorem lineReadable_iff {py : Python} {q : LogQuery} {line : Text} {event : Event} {t : DateTime}
    (hwithin : py.exceeds line = false) (hloads : Json.loads line = some (.obj event))
    (ht : event.time py = some t) : q.Answers event t.micros ↔ LineReadable py q line := by
  have htime : ∃ s parsed, event.get "created_at" = some (.str s) ∧
      py.fromisoformat (replaceZ s.codes) = some parsed ∧ (t.micros : Int) = parsed.instant := by
    unfold Event.time at ht
    split at ht
    · next s hget =>
      obtain ⟨parsed, hparsed, hutc⟩ := Option.bind_eq_some_iff.mp ht
      exact ⟨s, parsed, hget, hparsed, utc_eq_some.mp hutc⟩
    · cases ht
  obtain ⟨s, parsed, hget, hparsed, hinstant⟩ := htime
  constructor
  · refine fun h => ⟨hwithin, fun e s' parsed' he hs hp => ?_⟩
    rw [hloads] at he
    cases he
    rw [hget] at hs
    cases hs
    rw [hparsed] at hp
    cases hp
    rw [← hinstant]
    exact ⟨⟨t, hinstant⟩, h⟩
  · intro h
    rw [hinstant]
    exact (h.time event s parsed hloads hget hparsed).2

/-- A line without an event, or with an event without a time. -/
theorem lineReadable_of_time_none {py : Python} {q : LogQuery} {line : Text}
    (hwithin : py.exceeds line = false)
    (h : ∀ (event : Event) (s : Str) (parsed : ParsedTime), Json.loads line = some (.obj event) →
      event.get "created_at" = some (.str s) →
      py.fromisoformat (replaceZ s.codes) ≠ some parsed) : LineReadable py q line :=
  ⟨hwithin, fun event s parsed he hs hp => absurd hp (h event s parsed he hs)⟩

/-- **A line is read, or it is not readable.** -/
theorem yields_readLine (py : Python) (q : LogQuery) (source : JsonlLogSource) (filename : Str)
    (lineNumber : Nat) (line : Text) :
    Yields (LineReadable py q line) (readLine py q source filename lineNumber line)
      (lineEvent py q source filename lineNumber line) := by
  unfold readLine parseLine lineEvent
  by_cases hexceeds : py.exceeds line = true
  · rw [if_pos hexceeds]
    refine ⟨fun h => ?_, fun _ => ⟨.limits, rfl⟩⟩
    rw [h.within] at hexceeds
    cases hexceeds
  · rw [if_neg hexceeds]
    rw [Bool.not_eq_true] at hexceeds
    have hnone : (∀ event, Json.loads line ≠ some (.obj event)) → LineReadable py q line :=
      fun h => lineReadable_of_time_none hexceeds fun event _ _ he => absurd he (h event)
    cases hloads : Json.loads line with
    | none => exact ⟨fun _ => rfl, fun hnot => absurd (hnone (by simp [hloads])) hnot⟩
    | some value =>
      cases value with
      | obj event =>
        simp only
        obtain ⟨hparse, htime⟩ | ⟨hparse, s, parsed, hget, hparsed, hnot⟩ :=
          parseDatetime_cases py event
        · rw [hparse]
          cases ht : Event.time py event with
          | none =>
            have hreadable : LineReadable py q line := by
              refine lineReadable_of_time_none hexceeds fun e s parsed he hs hp => ?_
              rw [hloads] at he
              cases he
              obtain ⟨t, ht', -⟩ := htime s parsed hs hp
              rw [ht] at ht'
              cases ht'
            exact ⟨fun _ => rfl, fun hnot => absurd hreadable hnot⟩
          | some t =>
            have hbind := hparse
            rw [ht] at hbind
            have hsame : (indexEvent py source filename lineNumber event t).event = event := rfl
            refine Yields.congr ?_ (lineReadable_iff hexceeds hloads ht)
            have htests := yields_tests q (indexEvent py source filename lineNumber event t) t
            rw [hsame] at htests
            simp only [Bind.bind, Except.bind, Pure.pure, Except.pure, hsame, hbind] at htests ⊢
            exact htests
        · rw [hparse]
          refine ⟨fun h => absurd (h.time event s parsed hloads hget hparsed).1 hnot, fun _ => ?_⟩
          exact ⟨.overflow, rfl⟩
      | _ => exact ⟨fun _ => rfl, fun hnot => absurd (hnone (by simp [hloads])) hnot⟩

/-! ## Files -/

/-- The events of a file. -/
def fileEvents (py : Python) (q : LogQuery) (source : JsonlLogSource) (file : LogFile) :
    List IndexedEvent :=
  match file.content.bind ofUtf8 with
  | none => []
  | some s =>
    ((textLines s).zipIdx 1).filterMap fun line => lineEvent py q source file.name line.2 line.1

/-- The file can be opened and decoded, and its lines are readable. -/
def FileReadable (py : Python) (q : LogQuery) (file : LogFile) : Prop :=
  ∃ bytes s, file.content = some bytes ∧ ofUtf8 bytes = some s ∧
    ∀ line ∈ textLines s, LineReadable py q line

/-- The files of a source that are read. -/
def sourceFiles (fs : FileSystem) (source : JsonlLogSource) : List LogFile :=
  match fs source.directory with
  | .entries e => (sortedBy LogFile.name e.files).filter (isRead source)
  | _ => []

/-- **The events that match**, source by source, file by file and line by line. -/
def matching (py : Python) (sources : List JsonlLogSource) (fs : FileSystem) (q : LogQuery) :
    List IndexedEvent :=
  sources.flatMap fun source => (sourceFiles fs source).flatMap (fileEvents py q source)

/-- **The files of the sources can be read**, and the interpreter can take every line of them. -/
def Readable (py : Python) (sources : List JsonlLogSource) (fs : FileSystem) (q : LogQuery) : Prop :=
  ∀ source ∈ sources, fs source.directory ≠ .unreadable ∧
    ∀ file ∈ sourceFiles fs source, FileReadable py q file

theorem yields_readLines (py : Python) (q : LogQuery) (source : JsonlLogSource) (filename : Str)
    (lineNumber : Nat) (lines : List Text) :
    Yields (∀ line ∈ lines, LineReadable py q line)
      (readLines py q source filename lineNumber lines)
      ((lines.zipIdx lineNumber).filterMap fun line =>
        lineEvent py q source filename line.2 line.1) := by
  induction lines generalizing lineNumber with
  | nil => exact ⟨fun _ => rfl, fun h => absurd (by simp) h⟩
  | cons line lines ih =>
    have hbind := (yields_readLine py q source filename lineNumber line).bind (ih (lineNumber + 1))
      fun indexed rest => indexed.toList ++ rest
    rw [readLines, List.zipIdx_cons, List.filterMap_cons]
    refine Yields.congr ?_ List.forall_mem_cons.symm
    cases hevent : lineEvent py q source filename lineNumber line with
    | none =>
      rw [hevent] at hbind
      exact hbind
    | some event =>
      rw [hevent] at hbind
      exact hbind

theorem yields_readFile (py : Python) (q : LogQuery) (source : JsonlLogSource) (file : LogFile) :
    Yields (FileReadable py q file) (readFile py q source file) (fileEvents py q source file) := by
  unfold readFile fileEvents
  cases hcontent : file.content with
  | none =>
    refine ⟨fun h => ?_, fun _ => ⟨_, rfl⟩⟩
    obtain ⟨bytes, s, hbytes, -⟩ := h
    rw [hcontent] at hbytes
    cases hbytes
  | some bytes =>
    rw [Option.bind_some]
    cases hdecode : ofUtf8 bytes with
    | none =>
      refine ⟨fun h => ?_, fun _ => ⟨.unicodeDecode, by simp only [hdecode]⟩⟩
      obtain ⟨bytes', s, hbytes, hs, -⟩ := h
      rw [hcontent] at hbytes
      cases hbytes
      rw [hdecode] at hs
      cases hs
    | some s =>
      have hiff : (∀ line ∈ textLines s, LineReadable py q line) ↔ FileReadable py q file := by
        constructor
        · exact fun h => ⟨bytes, s, hcontent, hdecode, h⟩
        · rintro ⟨bytes', s', hbytes, hs, h⟩
          rw [hcontent] at hbytes
          cases hbytes
          rw [hdecode] at hs
          cases hs
          exact h
      simp only [hdecode]
      exact (yields_readLines py q source file.name 1 (textLines s)).congr hiff

theorem yields_readFiles (py : Python) (q : LogQuery) (source : JsonlLogSource)
    (files : List LogFile) :
    Yields (∀ file ∈ files.filter (isRead source), FileReadable py q file)
      (readFiles py q source files)
      ((files.filter (isRead source)).flatMap (fileEvents py q source)) := by
  induction files with
  | nil => exact ⟨fun _ => rfl, fun h => absurd (by simp) h⟩
  | cons file files ih =>
    rw [readFiles]
    by_cases hread : isRead source file = true
    · rw [if_pos hread, List.filter_cons_of_pos hread, List.flatMap_cons]
      have hbind := (yields_readFile py q source file).bind ih fun events rest => events ++ rest
      exact hbind.congr List.forall_mem_cons.symm
    · rw [if_neg hread, List.filter_cons_of_neg hread]
      exact ih

theorem yields_readSource (py : Python) (fs : FileSystem) (q : LogQuery) (source : JsonlLogSource) :
    Yields (fs source.directory ≠ .unreadable ∧ ∀ file ∈ sourceFiles fs source,
        FileReadable py q file)
      (readSource py fs q source) ((sourceFiles fs source).flatMap (fileEvents py q source)) := by
  unfold readSource sourceFiles
  cases hdir : fs source.directory with
  | missing => exact ⟨fun _ => rfl, fun h => absurd ⟨by simp, by simp⟩ h⟩
  | unreadable => exact ⟨fun h => absurd rfl h.1, fun _ => ⟨_, rfl⟩⟩
  | entries e =>
    refine (yields_readFiles py q source (sortedBy LogFile.name e.files)).congr ?_
    exact ⟨fun h => ⟨by simp, h⟩, fun h => h.2⟩

/-- **The code reads the matching events, or the files are not readable.** -/
theorem yields_readSources (py : Python) (sources : List JsonlLogSource) (fs : FileSystem)
    (q : LogQuery) :
    Yields (Readable py sources fs q) (readSources py fs q sources)
      (matching py sources fs q) := by
  induction sources with
  | nil => exact ⟨fun _ => rfl, fun h => absurd (fun s hs => by cases hs) h⟩
  | cons source sources ih =>
    have hbind := (yields_readSource py fs q source).bind ih fun events rest => events ++ rest
    have hiff : Readable py (source :: sources) fs q ↔
        (fs source.directory ≠ .unreadable ∧ ∀ file ∈ sourceFiles fs source,
          FileReadable py q file) ∧ Readable py sources fs q := List.forall_mem_cons
    exact hbind.congr hiff.symm

/-! ## Pages -/

theorem plainItems_strings (strings : List Str) :
    Json.All.AllItems (fun _ => True) (fun _ _ _ => False) (strings.map Json.str) := by
  induction strings with
  | nil => trivial
  | cons s strings ih => exact ⟨trivial, ih⟩

theorem isStrings_self (strings : List Str) : isStrings strings (.arr (strings.map .str)) = true := by
  rw [isStrings, List.length_map, decide_eq_true rfl, Bool.true_and, List.all_eq_true]
  intro pair hpair
  rw [List.zip_map_left, List.mem_map] at hpair
  obtain ⟨⟨s, t⟩, hmem, rfl⟩ := hpair
  obtain ⟨i, hi, heq⟩ := List.mem_iff_getElem.mp hmem
  rw [List.getElem_zip] at heq
  cases heq
  exact decide_eq_true rfl

theorem plain_cursorPayload (sources : List JsonlLogSource) (ascending : Bool) (key : SortKey) :
    (cursorPayload sources ascending key).Plain :=
  ⟨trivial, trivial, trivial, trivial, trivial, plainItems_strings _, trivial,
    ⟨trivial, trivial, trivial, trivial, trivial, trivial⟩, trivial⟩

theorem keyOfPayload_cursorPayload (sources : List JsonlLogSource) (ascending : Bool)
    (key : SortKey) :
    keyOfPayload sources ascending (cursorPayload sources ascending key) = some key := by
  have hkey : Event.get [
      (str "version".toList, .int 1),
      (str "ascending".toList, .bool ascending),
      (str "sources".toList, .arr ((sourceSignature sources).map .str)),
      (str "key".toList, .arr [.str key.createdAt, .str key.eventId, .str key.sourceId,
        .str key.filename, .int key.lineNumber])] "key" =
      some (.arr [.str key.createdAt, .str key.eventId, .str key.sourceId, .str key.filename,
        .int key.lineNumber]) := rfl
  unfold keyOfPayload cursorPayload
  simp only [hkey]
  rw [if_pos]
  · rfl
  · exact ⟨rfl, decide_eq_true rfl, isStrings_self _⟩

/-- **A cursor that was encoded gives back its position.** -/
theorem decodeCursor_encodeCursor (sources : List JsonlLogSource) (ascending : Bool)
    (key : SortKey) :
    decodeCursor sources ascending (encodeCursor sources ascending key) = .ok key := by
  have hbytes : ∀ b : ByteArray, ByteArray.mk b.data.toList.toArray = b := fun b => by
    rw [Array.toArray_toList]
  unfold decodeCursor encodeCursor
  rw [Base64.pad_unpad, Base64.decode_encode, Option.bind_eq_bind, Option.bind_some, hbytes,
    ofUtf8_toUtf8, Option.bind_eq_bind, Option.bind_some,
    Json.loads_dumps _ (plain_cursorPayload sources ascending key), Option.bind_eq_bind,
    Option.bind_some, keyOfPayload_cursorPayload]

/-- The page behind a position, and the position of the next one. -/
def pageOf (ascending : Bool) (limit : Nat) (indexed : List IndexedEvent) (after : Option SortKey) :
    List IndexedEvent × Option SortKey :=
  if ascending then Paging.page (·.sortKey) limit indexed after
  else
    let page := Paging.page (fun e => OrderDual.toDual e.sortKey) limit indexed
      (after.map OrderDual.toDual)
    (page.1, page.2.map OrderDual.ofDual)

/-- A page as it is answered. -/
def scanPage (sources : List JsonlLogSource) (ascending : Bool)
    (page : List IndexedEvent × Option SortKey) : JsonlScanPage where
  events := page.1.map (·.event)
  nextCursor := page.2.map (encodeCursor sources ascending)

/-- The last part of the scan, on the events that were read. -/
theorem scanPage_pageOf (sources : List JsonlLogSource) (ascending : Bool) (limit : Nat)
    (indexed : List IndexedEvent) (after : Option SortKey) :
    scanPage sources ascending (pageOf ascending limit indexed after) =
      let rest := behindCursor ascending after (inOrder ascending indexed)
      let candidates := rest.take (limit + 1)
      { events := (candidates.take limit).map (·.event)
        nextCursor :=
          if limit < candidates.length then
            (candidates.take limit).getLast?.map fun e => encodeCursor sources ascending e.sortKey
          else none } := by
  -- one element more than the page tells whether there are more
  have htake : ∀ rest : List IndexedEvent, (rest.take (limit + 1)).take limit = rest.take limit := by
    intro rest
    rw [List.take_take, Nat.min_eq_left (by omega)]
  have hmore : ∀ rest : List IndexedEvent,
      limit < (rest.take (limit + 1)).length ↔ limit < rest.length := by
    intro rest
    rw [List.length_take]
    omega
  simp only [htake, hmore]
  cases ascending with
  | true =>
    have hrest : Paging.behind (·.sortKey) after indexed =
        behindCursor true after (inOrder true indexed) := by
      cases after <;> rfl
    simp only [scanPage, pageOf, if_true, Paging.page, hrest]
    split
    · rw [Option.map_map]
      rfl
    · rfl
  | false =>
    have hrest : Paging.behind (fun e => OrderDual.toDual e.sortKey) (after.map OrderDual.toDual)
        indexed = behindCursor false after (inOrder false indexed) := by
      cases after <;> rfl
    simp only [scanPage, pageOf, Bool.false_eq_true, if_false, Paging.page, hrest]
    split
    · rw [Option.map_map, Option.map_map]
      rfl
    · rfl

/-- The position of a cursor. -/
def positionOf (sources : List JsonlLogSource) (ascending : Bool) :
    Option Text → Except ScanError (Option SortKey)
  | none => .ok none
  | some cursor => some <$> decodeCursor sources ascending cursor

theorem positionOf_encodeCursor (sources : List JsonlLogSource) (ascending : Bool)
    (after : Option SortKey) :
    positionOf sources ascending (after.map (encodeCursor sources ascending)) = .ok after := by
  cases after with
  | none => rfl
  | some key =>
    rw [Option.map_some, positionOf, decodeCursor_encodeCursor]
    rfl

/-- **The scan answers with a page of what it reads.** -/
theorem scan_eq (py : Python) (sources : List JsonlLogSource) (fs : FileSystem) {q : LogQuery}
    (hlimit : 1 ≤ q.limit) {cursor : Option Text} {after : Option SortKey}
    (hcursor : positionOf sources q.ascending cursor = .ok after) :
    scan py sources fs q cursor =
      (readSources py fs q sources).map fun indexed =>
        scanPage sources q.ascending (pageOf q.ascending q.limit indexed after) := by
  simp only [scanPage_pageOf]
  unfold scan
  rw [if_neg (by omega)]
  cases cursor with
  | none =>
    cases hcursor
    cases readSources py fs q sources <;> rfl
  | some cursor =>
    rw [positionOf] at hcursor
    simp only [hcursor]
    cases readSources py fs q sources <;> rfl

/-- A scan of files that are not readable fails. -/
theorem scan_of_not_readable {py : Python} {sources : List JsonlLogSource} {fs : FileSystem}
    {q : LogQuery} (hlimit : 1 ≤ q.limit) {cursor : Option Text} {after : Option SortKey}
    (hcursor : positionOf sources q.ascending cursor = .ok after)
    (hnot : ¬ Readable py sources fs q) : ∃ e, scan py sources fs q cursor = .error e := by
  obtain ⟨e, he⟩ := (yields_readSources py sources fs q).2 hnot
  refine ⟨e, ?_⟩
  rw [scan_eq py sources fs hlimit hcursor, he]
  rfl

/-- **A scan answers exactly with the matching events behind its cursor, if and only if the files are
readable.** -/
theorem scan_exact_iff (py : Python) (sources : List JsonlLogSource) (fs : FileSystem) (q : LogQuery)
    (hlimit : 1 ≤ q.limit) (cursor : Option Text) (after : Option SortKey)
    (hcursor : positionOf sources q.ascending cursor = .ok after) :
    scan py sources fs q cursor =
        .ok (scanPage sources q.ascending
          (pageOf q.ascending q.limit (matching py sources fs q) after)) ↔
      Readable py sources fs q := by
  constructor
  · intro h
    by_contra hnot
    obtain ⟨e, he⟩ := scan_of_not_readable hlimit hcursor hnot
    rw [he] at h
    cases h
  · intro h
    rw [scan_eq py sources fs hlimit hcursor, (yields_readSources py sources fs q).1 h]
    rfl

/-! ## A time that there is not in UTC -/

def newYear : DateTime := ⟨⟨2026, 1, 1, by decide⟩, 0, 0, 0, 0, by decide⟩

/-- Two of the times of a log. -/
def samplePython : Python where
  fromisoformat s :=
    if s = codes "2026-01-01T00:00:00+00:00".toList then
      some ⟨newYear, some 0⟩
    else if s = codes "0001-01-01T00:00:00+01:00".toList then
      some ⟨⟨⟨1, 1, 1, by decide⟩, 0, 0, 0, 0, by decide⟩, some 3600000000⟩
    else none
  exceeds _ := false
  textOf _ := str []

def sampleSource : JsonlLogSource := ⟨str "logs".toList, "logs", str "log".toList⟩

/-- The second line is the first hour of the calendar, an hour east of Greenwich. -/
def sampleLines : List Text :=
  ["\x7b\"created_at\": \"2026-01-01T00:00:00Z\"\x7d\n".toList,
    "\x7b\"created_at\": \"0001-01-01T00:00:00+01:00\"\x7d\n".toList]

def sampleFile : LogFile where
  name := str "log-2026-01-01.jsonl".toList
  isSymlink := false
  isFile := true
  inDirectory := true
  content := some (toUtf8 sampleLines.flatten)

def sampleFiles : FileSystem := fun _ => .entries ⟨[sampleFile], List.nodup_singleton _⟩

def sampleQuery : LogQuery where
  predicate _ := some true
  createdFrom := none
  createdTo := none
  limit := 10
  ascending := true

theorem mem_sampleFiles : sampleFile ∈ sourceFiles sampleFiles sampleSource := by
  have hread : isRead sampleSource sampleFile = true := by decide +kernel
  exact List.mem_filter.mpr ⟨List.mem_singleton.mpr rfl, hread⟩

theorem not_readable_sampleFiles :
    ¬ Readable samplePython [sampleSource] sampleFiles sampleQuery := by
  intro h
  obtain ⟨bytes, s, hcontent, hs, hlines⟩ := (h sampleSource (by simp)).2 sampleFile mem_sampleFiles
  obtain rfl := Option.some.inj hcontent
  rw [ofUtf8_toUtf8] at hs
  obtain rfl := Option.some.inj hs
  have hline := hlines (sampleLines.getLastD []) (by decide +kernel)
  have hok := (yields_readLine samplePython sampleQuery sampleSource sampleFile.name 2 _).1 hline
  have hfails : (readLine samplePython sampleQuery sampleSource sampleFile.name 2
      (sampleLines.getLastD [])).isOk = false := by decide +kernel
  rw [hok] at hfails
  cases hfails

/-- The first line is an event that matches. -/
theorem length_matching_sampleFiles :
    (matching samplePython [sampleSource] sampleFiles sampleQuery).length = 1 := by
  have hread : isRead sampleSource sampleFile = true := by decide +kernel
  have hfiles : sourceFiles sampleFiles sampleSource = [sampleFile] := by
    show [sampleFile].filter (isRead sampleSource) = [sampleFile]
    rw [List.filter_cons_of_pos hread, List.filter_nil]
  have hevents : fileEvents samplePython sampleQuery sampleSource sampleFile =
      ((textLines sampleLines.flatten).zipIdx 1).filterMap fun line =>
        lineEvent samplePython sampleQuery sampleSource sampleFile.name line.2 line.1 := by
    simp only [fileEvents, sampleFile, Option.bind_some, ofUtf8_toUtf8]
  rw [matching, List.flatMap_singleton, hfiles, List.flatMap_singleton, hevents]
  decide +kernel

theorem scan_exact_iff_sampleFiles :
    scan samplePython [sampleSource] sampleFiles sampleQuery none =
        .ok (scanPage [sampleSource] sampleQuery.ascending (pageOf sampleQuery.ascending
          sampleQuery.limit (matching samplePython [sampleSource] sampleFiles sampleQuery) none)) ↔
      Readable samplePython [sampleSource] sampleFiles sampleQuery :=
  scan_exact_iff samplePython [sampleSource] sampleFiles sampleQuery (by decide) none none rfl

/-- **A line with an extreme time breaks a query**: it fails, and the event of the other line is not
answered. -/
theorem scan_breaks_on_extreme_time :
    (matching samplePython [sampleSource] sampleFiles sampleQuery).length = 1 ∧
      ∃ e, scan samplePython [sampleSource] sampleFiles sampleQuery none = .error e :=
  ⟨length_matching_sampleFiles, scan_of_not_readable (by decide) rfl not_readable_sampleFiles⟩

end DocFlow.Operations
