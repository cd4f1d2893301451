import DocFlow.Operations.LogReading

/-!
# Reading the logs page by page

A client scans without a cursor, and then with the cursor of each answer until there is none
(`Paging.follow`).

* `nodup_sortKeys`: no two events have the same key, since the sources have different ids, and the
  files of a source different names.
* `matching_subset`: what is appended to the files behind complete lines changes none of the events
  that were there.
* `pages_exact`: the pages are exact as long as the files are readable.
-/

namespace DocFlow.Operations

open Text Calendar

/-! ## Keys -/

/-- The line of an event is in its key. -/
theorem lineEvent_eq_some {py : Python} {q : LogQuery} {source : JsonlLogSource} {filename : Str}
    {lineNumber : Nat} {line : Text} {indexed : IndexedEvent}
    (h : lineEvent py q source filename lineNumber line = some indexed) :
    indexed.sortKey.sourceId = source.sourceId ∧ indexed.sortKey.filename = filename ∧
      indexed.sortKey.lineNumber = lineNumber := by
  unfold lineEvent at h
  split at h
  · split at h
    · split at h
      · obtain rfl := Option.some.inj h
        exact ⟨rfl, rfl, rfl⟩
      · cases h
    · cases h
  · cases h

theorem mem_fileEvents {py : Python} {q : LogQuery} {source : JsonlLogSource} {file : LogFile}
    {indexed : IndexedEvent} (h : indexed ∈ fileEvents py q source file) :
    indexed.sortKey.sourceId = source.sourceId ∧ indexed.sortKey.filename = file.name := by
  unfold fileEvents at h
  split at h
  · cases h
  · obtain ⟨line, -, hline⟩ := List.mem_filterMap.mp h
    exact ⟨(lineEvent_eq_some hline).1, (lineEvent_eq_some hline).2.1⟩

/-- The lines of a file are numbered. -/
theorem nodup_fileEvents (py : Python) (q : LogQuery) (source : JsonlLogSource) (file : LogFile) :
    ((fileEvents py q source file).map (·.sortKey)).Nodup := by
  unfold fileEvents
  split
  · exact List.nodup_nil
  · next s _ =>
    rw [List.Nodup, List.pairwise_map, List.pairwise_filterMap]
    have hnumbers : (((textLines s).zipIdx 1).map Prod.snd).Nodup := by
      rw [List.zipIdx_map_snd]
      exact List.nodup_range'
    rw [List.Nodup, List.pairwise_map] at hnumbers
    refine hnumbers.imp fun {line line'} hne a ha b hb hkey => hne ?_
    have hline := (lineEvent_eq_some ha).2.2
    have hline' := (lineEvent_eq_some hb).2.2
    rw [hkey, hline'] at hline
    exact_mod_cast hline.symm

theorem mem_sourceFiles {fs : FileSystem} {source : JsonlLogSource} {file : LogFile} :
    file ∈ sourceFiles fs source ↔
      ∃ e : Entries, fs source.directory = .entries e ∧ file ∈ e.files ∧
        isRead source file = true := by
  unfold sourceFiles
  split
  · next e he =>
    rw [List.mem_filter, mem_sortedBy, he]
    constructor
    · rintro ⟨hmem, hread⟩
      exact ⟨e, rfl, hmem, hread⟩
    · rintro ⟨e', he', hmem, hread⟩
      obtain rfl := Directory.entries.inj he'
      exact ⟨hmem, hread⟩
  · next hne =>
    constructor
    · intro h
      cases h
    · rintro ⟨e, he, -⟩
      exact absurd he (hne e)

theorem nodup_sourceFiles (fs : FileSystem) (source : JsonlLogSource) :
    ((sourceFiles fs source).map LogFile.name).Nodup := by
  unfold sourceFiles
  split
  · next e _ =>
    have hall : ((sortedBy LogFile.name e.files).map LogFile.name).Nodup :=
      ((sortedBy_perm LogFile.name e.files).map LogFile.name).nodup_iff.mpr e.nodup
    exact hall.sublist (List.filter_sublist.map _)
  · exact List.nodup_nil

/-- **No two of the matching events have the same key.** -/
theorem nodup_sortKeys (py : Python) {sources : List JsonlLogSource}
    (hids : (sources.map (·.sourceId)).Nodup) (fs : FileSystem) (q : LogQuery) :
    ((matching py sources fs q).map (·.sortKey)).Nodup := by
  rw [matching, List.map_flatMap, List.nodup_flatMap]
  constructor
  · intro source _
    rw [List.map_flatMap, List.nodup_flatMap]
    refine ⟨fun file _ => nodup_fileEvents py q source file, ?_⟩
    have hnames := nodup_sourceFiles fs source
    rw [List.Nodup, List.pairwise_map] at hnames
    refine hnames.imp fun {file file'} hne => ?_
    refine List.disjoint_left.mpr ?_
    intro key hkey hkey'
    obtain ⟨a, ha, rfl⟩ := List.mem_map.mp hkey
    obtain ⟨b, hb, hab⟩ := List.mem_map.mp hkey'
    apply hne
    rw [← (mem_fileEvents ha).2, ← (mem_fileEvents hb).2, hab]
  · rw [List.Nodup, List.pairwise_map] at hids
    refine hids.imp fun {source source'} hne => ?_
    refine List.disjoint_left.mpr ?_
    intro key hkey hkey'
    obtain ⟨a, ha, rfl⟩ := List.mem_map.mp hkey
    obtain ⟨b, hb, hab⟩ := List.mem_map.mp hkey'
    obtain ⟨file, -, hfile⟩ := List.mem_flatMap.mp ha
    obtain ⟨file', -, hfile'⟩ := List.mem_flatMap.mp hb
    apply hne
    rw [← (mem_fileEvents hfile).1, ← (mem_fileEvents hfile').1, hab]

/-! ## Growing files -/

theorem textLines_append {s : Text} (hs : Closed s) (t : Text) :
    textLines (s ++ t) = textLines s ++ textLines t := by
  unfold textLines
  rw [replacePair_append (by decide) hs, replaceChar, List.map_append]
  exact Csv.linesOf_append (closed_replaceChar (closed_replacePair hs)) _

/-- Lines were appended to the file, behind a complete line. -/
def LogFile.Grows (file file' : LogFile) : Prop :=
  file' = file ∨ ∃ s t, Closed s ∧ file.content = some (toUtf8 s) ∧
    file' = { file with content := some (toUtf8 (s ++ t)) }

/-- No file is gone or changed; files may be new. -/
def Directory.Grows : Directory → Directory → Prop
  | .entries e, directory => ∃ e' : Entries, directory = .entries e' ∧
    ∀ file ∈ e.files, ∃ file' ∈ e'.files, file.Grows file'
  | _, _ => True

def Grows (fs fs' : FileSystem) : Prop := ∀ directory, (fs directory).Grows (fs' directory)

theorem fileEvents_subset (py : Python) (q : LogQuery) (source : JsonlLogSource)
    {file file' : LogFile} (h : file.Grows file') :
    fileEvents py q source file ⊆ fileEvents py q source file' := by
  obtain rfl | ⟨s, t, hs, hcontent, rfl⟩ := h
  · exact List.Subset.refl _
  · intro indexed hindexed
    simp only [fileEvents, hcontent, Option.bind_some, ofUtf8_toUtf8] at hindexed ⊢
    rw [textLines_append hs, List.zipIdx_append, List.filterMap_append]
    exact List.mem_append_left _ hindexed

/-- **An event stays where it is when the files grow.** -/
theorem matching_subset (py : Python) (sources : List JsonlLogSource) {fs fs' : FileSystem}
    (h : Grows fs fs') (q : LogQuery) : matching py sources fs q ⊆ matching py sources fs' q := by
  intro indexed hindexed
  obtain ⟨source, hsource, hfiles⟩ := List.mem_flatMap.mp hindexed
  obtain ⟨file, hfile, hevent⟩ := List.mem_flatMap.mp hfiles
  obtain ⟨e, he, hmem, hread⟩ := mem_sourceFiles.mp hfile
  have hgrows := h source.directory
  rw [he] at hgrows
  obtain ⟨e', he', hall⟩ := hgrows
  obtain ⟨file', hmem', hgrows⟩ := hall file hmem
  have hread' : isRead source file' = true := by
    obtain rfl | ⟨s, t, -, -, rfl⟩ := hgrows
    · exact hread
    · exact hread
  refine List.mem_flatMap.mpr ⟨source, hsource, List.mem_flatMap.mpr ⟨file', ?_, ?_⟩⟩
  · exact mem_sourceFiles.mpr ⟨e', he', hmem', hread'⟩
  · exact fileEvents_subset py q source hgrows hevent

/-! ## Pages -/

/-- The order of an answer. -/
def Before (ascending : Bool) (a b : IndexedEvent) : Prop :=
  if ascending then a.sortKey < b.sortKey else b.sortKey < a.sortKey

/-- The key that gives the order of a query, and the position of a key. -/
structure Directed {κ : Type} [LinearOrder κ] (ascending : Bool) (f : IndexedEvent → κ)
    (position : κ → SortKey) : Prop where
  before : ∀ a b, f a < f b ↔ Before ascending a b
  order : ∀ l, sortedBy f l = inOrder ascending l
  page : ∀ (limit : Nat) (l : List IndexedEvent) (after : Option κ),
    pageOf ascending limit l (after.map position) =
      ((Paging.page f limit l after).1, (Paging.page f limit l after).2.map position)

theorem directed_true : Directed true (·.sortKey) id where
  before _ _ := Iff.rfl
  order _ := rfl
  page limit l after := by
    rw [Option.map_id_fun, id, id]
    rfl

theorem directed_false :
    Directed false (fun e => OrderDual.toDual e.sortKey) OrderDual.ofDual where
  before _ _ := OrderDual.toDual_lt_toDual
  order _ := rfl
  page limit l after := by
    have hafter : (after.map OrderDual.ofDual).map OrderDual.toDual = after := by
      cases after <;> rfl
    simp only [pageOf, Bool.false_eq_true, if_false, hafter]

theorem Directed.nodup {κ : Type} [LinearOrder κ] {ascending : Bool} {f : IndexedEvent → κ}
    {position : κ → SortKey} (h : Directed ascending f position) {l : List IndexedEvent}
    (hl : (l.map (·.sortKey)).Nodup) : (l.map f).Nodup := by
  rw [List.Nodup, List.pairwise_map] at hl ⊢
  refine hl.imp fun {a b} hne heq => hne ?_
  have hab : ¬ Before ascending a b := fun hlt => ((h.before a b).mpr hlt).ne heq
  have hba : ¬ Before ascending b a := fun hlt => ((h.before b a).mpr hlt).ne heq.symm
  cases ascending with
  | true => exact le_antisymm (not_lt.mp hba) (not_lt.mp hab)
  | false => exact le_antisymm (not_lt.mp hab) (not_lt.mp hba)

/-- What a client gets. -/
def answer (py : Python) (sources : List JsonlLogSource) (q : LogQuery) (fs : FileSystem)
    (cursor : Option Text) : Option (List Event × Option Text) :=
  match scan py sources fs q cursor with
  | .ok page => some (page.events, page.nextCursor)
  | .error _ => none

section

variable {py : Python} {sources : List JsonlLogSource} {q : LogQuery}

theorem answer_of_readable (hlimit : 1 ≤ q.limit) {fs : FileSystem}
    (h : Readable py sources fs q) (after : Option SortKey) :
    answer py sources q fs (after.map (encodeCursor sources q.ascending)) =
      let page := pageOf q.ascending q.limit (matching py sources fs q) after
      some (page.1.map (·.event), page.2.map (encodeCursor sources q.ascending)) := by
  rw [answer, scan_eq py sources fs hlimit (positionOf_encodeCursor sources q.ascending after),
    (yields_readSources py sources fs q).1 h]
  rfl

theorem answer_of_not_readable (hlimit : 1 ≤ q.limit) {fs : FileSystem}
    (h : ¬ Readable py sources fs q) (after : Option SortKey) :
    answer py sources q fs (after.map (encodeCursor sources q.ascending)) = none := by
  obtain ⟨e, he⟩ :=
    scan_of_not_readable hlimit (positionOf_encodeCursor sources q.ascending after) h
  rw [answer, he]

variable {κ : Type} [LinearOrder κ] {f : IndexedEvent → κ} {position : κ → SortKey}

/-- The pages of readable files are the pages of the matching events. -/
theorem follow_answer (hdir : Directed q.ascending f position) (hlimit : 1 ≤ q.limit)
    {fss : List FileSystem} (hread : ∀ fs ∈ fss, Readable py sources fs q) :
    Paging.follow (answer py sources q) none fss =
      (Paging.follow (fun l after => some (Paging.page f q.limit l after)) none
        (fss.map fun fs => matching py sources fs q)).map (List.map (·.event)) := by
  refine Paging.follow_map (fun l after => some (Paging.page f q.limit l after))
    (fun fs => matching py sources fs q) (fun k => encodeCursor sources q.ascending (position k))
    IndexedEvent.event (fun fs hfs after => ?_) none
  have hanswer := answer_of_readable hlimit (hread fs hfs) (after.map position)
  rw [Option.map_map] at hanswer
  refine hanswer.trans ?_
  simp only [hdir.page, Option.map_some, Option.map_map]
  rfl

/-- **The pages of files that do not change.** -/
theorem follow_const_iff (hdir : Directed q.ascending f position) (hlimit : 1 ≤ q.limit)
    (hids : (sources.map (·.sourceId)).Nodup) (fs : FileSystem) :
    (∃ m, ∀ n, m ≤ n → Paging.follow (answer py sources q) none (List.replicate n fs) =
        some ((inOrder q.ascending (matching py sources fs q)).map (·.event))) ↔
      Readable py sources fs q := by
  constructor
  · rintro ⟨m, hm⟩
    by_contra hnot
    have hfirst := hm (m + 1) (by omega)
    have hnone := answer_of_not_readable hlimit hnot none
    rw [Option.map_none] at hnone
    simp only [List.replicate_succ, Paging.follow, hnone] at hfirst
    cases hfirst
  · intro h
    obtain ⟨m, hm⟩ := Paging.follow_const (f := f) (show 0 < q.limit by omega)
      (hdir.nodup (nodup_sortKeys py hids fs q)) none
    refine ⟨m, fun n hn => ?_⟩
    rw [follow_answer hdir hlimit fun s hs => List.eq_of_mem_replicate hs ▸ h, List.map_replicate,
      hm n hn, Option.map_some, Paging.behind, hdir.order]

/-- **The pages of files that grow** and then stay as they are. -/
theorem follow_growing (hdir : Directed q.ascending f position) (hlimit : 1 ≤ q.limit)
    (hids : (sources.map (·.sourceId)).Nodup) {fs fs' : FileSystem} {fss : List FileSystem}
    (hgrows : (fs :: fss ++ [fs']).IsChain Grows)
    (hread : ∀ s ∈ fs :: fss ++ [fs'], Readable py sources s q) :
    ∃ m, ∀ n, m ≤ n → ∃ indexed,
      Paging.follow (answer py sources q) none (fs :: fss ++ List.replicate n fs') =
          some (indexed.map (·.event)) ∧
        indexed.Pairwise (Before q.ascending) ∧
        (inOrder q.ascending (matching py sources fs q)).Sublist indexed ∧
        ∀ e ∈ indexed, ∃ s ∈ fs :: fss ++ [fs'], e ∈ matching py sources s q := by
  have hnodup : ∀ s, ((matching py sources s q).map f).Nodup := fun s =>
    hdir.nodup (nodup_sortKeys py hids s q)
  obtain ⟨m, hm⟩ := Paging.exists_follow (show 0 < q.limit by omega)
    ((fs :: fss).map fun s => matching py sources s q) (hnodup fs') none
  refine ⟨m, fun n hn => ?_⟩
  obtain ⟨indexed, hindexed⟩ := hm n hn
  have hmem : ∀ s ∈ fs :: fss ++ List.replicate n fs', s ∈ fs :: fss ++ [fs'] := by
    intro s hs
    obtain hs | hs := List.mem_append.mp hs
    · exact List.mem_append_left _ hs
    · rw [List.eq_of_mem_replicate hs]
      exact List.mem_append_right _ List.mem_cons_self
  have hchain : (fs :: fss ++ List.replicate n fs').IsChain fun a b =>
      matching py sources a q ⊆ matching py sources b q := by
    obtain ⟨hfirst, -, hlast⟩ := List.isChain_append.mp
      (hgrows.imp fun a b hab => matching_subset py sources hab q)
    refine List.isChain_append.mpr ⟨hfirst, List.isChain_replicate_of_rel n (List.Subset.refl _), ?_⟩
    intro a ha b hb
    rw [List.eq_of_mem_replicate (List.mem_of_mem_head? hb)]
    exact hlast a ha fs' rfl
  have hlists : (matching py sources fs q ::
      (fss ++ List.replicate n fs').map fun s => matching py sources s q) =
      (fs :: fss).map (fun s => matching py sources s q) ++
        List.replicate n (matching py sources fs' q) := by
    rw [List.map_append, List.map_replicate]
    rfl
  have hstate : ∀ l ∈ (matching py sources fs q ::
      (fss ++ List.replicate n fs').map fun s => matching py sources s q),
      ∃ s ∈ fs :: fss ++ [fs'], l = matching py sources s q := by
    intro l hl
    obtain ⟨s, hs, rfl⟩ := List.mem_map.mp
      (show l ∈ (fs :: fss ++ List.replicate n fs').map fun s => matching py sources s q from hl)
    exact ⟨s, hmem s hs, rfl⟩
  obtain ⟨hpair, hsub, hin⟩ := Paging.exact_of_follow (f := f) (by omega)
    (matching py sources fs q) ((fss ++ List.replicate n fs').map fun s => matching py sources s q)
    (List.isChain_map_of_isChain (fun s => matching py sources s q) (fun _ _ hab => hab) hchain)
    (fun l hl => by
      obtain ⟨s, -, rfl⟩ := hstate l hl
      exact hnodup s)
    (hlists ▸ hindexed)
  refine ⟨indexed, ?_, hpair.imp fun {a b} hab => (hdir.before a b).mp hab, ?_, fun e he => ?_⟩
  · rw [follow_answer hdir hlimit fun s hs => hread s (hmem s hs), List.map_append,
      List.map_replicate, hindexed, Option.map_some]
  · rw [← hdir.order]
    exact hsub
  · obtain ⟨⟨l, hl, hel⟩, -⟩ := hin e he
    obtain ⟨s, hs, rfl⟩ := hstate l hl
    exact ⟨s, hs, hel⟩

end

theorem inOrder_perm (ascending : Bool) (l : List IndexedEvent) : (inOrder ascending l).Perm l := by
  cases ascending with
  | true => exact sortedBy_perm _ l
  | false => exact sortedBy_perm _ l

theorem inOrder_before {ascending : Bool} {l : List IndexedEvent}
    (h : (l.map (·.sortKey)).Nodup) : (inOrder ascending l).Pairwise (Before ascending) := by
  cases ascending with
  | true => exact Paging.sortedBy_strict h
  | false => exact Paging.sortedBy_strict (directed_false.nodup h)

/-- **The pages of the logs.**  The files can be read, if and only if the pages of files that do not
change are the matching events, each of them once, in the order of their keys.  When the files grow
between the pages, then no event that was there at the start is skipped, and none is repeated.  A
cursor is read back as its position, and the texts of times are in the order of the times. -/
theorem pages_exact (py : Python) (sources : List JsonlLogSource)
    (hids : (sources.map (·.sourceId)).Nodup) (q : LogQuery) (hlimit : 1 ≤ q.limit) :
    (∀ fs, (∃ m, ∀ n, m ≤ n →
        Paging.follow (answer py sources q) none (List.replicate n fs) =
          some ((inOrder q.ascending (matching py sources fs q)).map (·.event))) ↔
        Readable py sources fs q) ∧
      (∀ fs, (inOrder q.ascending (matching py sources fs q)).Perm (matching py sources fs q) ∧
        (inOrder q.ascending (matching py sources fs q)).Pairwise (Before q.ascending)) ∧
      (∀ fs fss fs', (fs :: fss ++ [fs']).IsChain Grows →
        (∀ s ∈ fs :: fss ++ [fs'], Readable py sources s q) → ∃ m, ∀ n, m ≤ n → ∃ indexed,
          Paging.follow (answer py sources q) none (fs :: fss ++ List.replicate n fs') =
              some (indexed.map (·.event)) ∧
            indexed.Pairwise (Before q.ascending) ∧
            (inOrder q.ascending (matching py sources fs q)).Sublist indexed ∧
            ∀ e ∈ indexed, ∃ s ∈ fs :: fss ++ [fs'], e ∈ matching py sources s q) ∧
      (∀ key, decodeCursor sources q.ascending (encodeCursor sources q.ascending key) = .ok key) ∧
      ∀ t t' : DateTime, str (isoformat t) < str (isoformat t') ↔ t.micros < t'.micros := by
  refine ⟨fun fs => ?_, fun fs => ⟨inOrder_perm _ _, inOrder_before (nodup_sortKeys py hids fs q)⟩,
    fun fs fss fs' hgrows hread => ?_, decodeCursor_encodeCursor sources q.ascending,
    isoformat_lt_iff⟩
  · cases hascending : q.ascending with
    | true => exact hascending ▸ follow_const_iff (hascending ▸ directed_true) hlimit hids fs
    | false => exact hascending ▸ follow_const_iff (hascending ▸ directed_false) hlimit hids fs
  · cases hascending : q.ascending with
    | true =>
      exact hascending ▸ follow_growing (hascending ▸ directed_true) hlimit hids hgrows hread
    | false =>
      exact hascending ▸ follow_growing (hascending ▸ directed_false) hlimit hids hgrows hread

theorem pages_exact_sampleSource :
    (∀ key, decodeCursor [sampleSource] sampleQuery.ascending
        (encodeCursor [sampleSource] sampleQuery.ascending key) = .ok key) ∧
      ∀ fs, (∃ m, ∀ n, m ≤ n →
        Paging.follow (answer samplePython [sampleSource] sampleQuery) none (List.replicate n fs) =
          some ((inOrder sampleQuery.ascending
            (matching samplePython [sampleSource] fs sampleQuery)).map (·.event))) ↔
        Readable samplePython [sampleSource] fs sampleQuery :=
  have h := pages_exact samplePython [sampleSource] (List.nodup_singleton _) sampleQuery (by decide)
  ⟨h.2.2.2.1, h.1⟩

/-- **A line with an extreme time breaks the pages**: an event matches, and there is no first page. -/
theorem pages_break_on_extreme_time :
    (matching samplePython [sampleSource] sampleFiles sampleQuery).length = 1 ∧
      ∀ n, Paging.follow (answer samplePython [sampleSource] sampleQuery) none
        (List.replicate n sampleFiles) = none := by
  refine ⟨length_matching_sampleFiles, fun n => ?_⟩
  have hnone := answer_of_not_readable (by decide) not_readable_sampleFiles none
  rw [Option.map_none] at hnone
  cases n with
  | zero => rfl
  | succ n => simp only [List.replicate_succ, Paging.follow, hnone]

end DocFlow.Operations
