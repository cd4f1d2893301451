import DocFlow.Document.Chunking
import DocFlow.Document.Csv
import DocFlow.Document.Splitting
import DocFlow.Lib.Json

/-!
# The chunks of a CSV file

`CsvChunker.build` reads the cleaned file again: each row becomes a chunk, and rows that follow each
other become a block as long as they fit.

* `readText_cleaned`: the cleaned file is read back with the header and the rows that were kept.
* `built_buildRows`, `error_of_buildRows`: what the loop over the rows gives, and when it fails.
* `csv_loses_nothing`: the processor and the chunker together.
-/

namespace DocFlow.CsvChunker

open Text Csv CsvProcessor
open Chunker (ChunkBuildResult ParentBlockData ChildChunkData)

def csvChildMaxChars : Nat := 8000
def csvParentMaxRows : Nat := 50
def csvParentMaxChars : Nat := 12000

/-- A row with the names of its columns: a `dict`, in the order of its keys. -/
abbrev CsvRecord := List (Text × Text)

/-! ## Texts -/

def recordJson (record : CsvRecord) : Json :=
  .obj (record.map fun field => (str field.1, .str (str field.2)))

/-- `build_csv_child_content`. -/
def buildCsvChildContent (record : CsvRecord) : Text := (recordJson record).dumps false

/-- `build_csv_embedding_text`. -/
def buildCsvEmbeddingText (record : CsvRecord) : Text :=
  ['\n'].intercalate ((record.filter fun field => field.2 ≠ []).map fun field =>
    field.1 ++ '：' :: field.2)

/-- `_build_parent_content`. -/
def buildParentContent (headers : List Text) (rowStart rowEnd : Nat) (records : List CsvRecord) :
    Text :=
  (Json.obj [
    (str "schema".toList, .arr (headers.map fun header => .str (str header))),
    (str "row_start".toList, .int rowStart),
    (str "row_end".toList, .int rowEnd),
    (str "records".toList, .arr (records.map recordJson))]).dumps false

/-- The title of a block. -/
def blockTitle (rowStart rowEnd : Nat) : Text :=
  "第 ".toList ++ Json.decimal rowStart ++ '-' :: Json.decimal rowEnd ++ " 行".toList

/-! ## The chunker -/

/-- What `csv.DictReader` makes of a row; a column without a field has no value. -/
def rawRecord (headers row : List Text) : List (Text × Option Text) :=
  (headers.zip row).map (fun field => (field.1, some field.2)) ++
    (headers.drop row.length).map fun header => (header, none)

/-- `{header: raw_record.get(header) or "" for header in headers}`; of equal keys the last one
counts. -/
def csvRecord (headers row : List Text) : CsvRecord :=
  headers.eraseDups.map fun header =>
    (header, (((rawRecord headers row).reverse.lookup header).getD none).getD [])

/-- The records that are waiting to become a block. -/
structure Batch where
  startRow : Nat
  records : List CsvRecord
  children : List ChildChunkData
deriving DecidableEq, Repr

inductive BuildError
  | missingHeaders
  | headersDiffer
  | recordTooLarge (sourceRowIndex : Nat)
  | blockTooLarge (sourceRowIndex : Nat)
  | read (e : ReadError)
deriving DecidableEq, Repr

def BuildError.detail : BuildError → String
  | .missingHeaders => "CSV cleaned 文件缺少表头"
  | .headersDiffer => "CSV cleaned 文件表头与处理产物元信息不一致"
  | .recordTooLarge i => s!"CSV 第 {i} 条记录内容过大"
  | .blockTooLarge i => s!"CSV 第 {i} 条记录超过父块大小限制"
  | .read (.csv e) => csvErrorText e
  | .read (.stream .undecodable) => "UnicodeDecodeError"
  | .read (.stream (.os detail)) => detail

/-- `_flush_batch`. -/
def flushBatch (headers : List Text) (blockIndex rowEnd : Nat) (batch : Batch) :
    ParentBlockData × List ChildChunkData :=
  ({ blockType := "csv_rows"
     title := some (blockTitle batch.startRow rowEnd)
     sectionPath := none
     content := buildParentContent headers batch.startRow rowEnd batch.records
     blockIndex := blockIndex
     semanticGroupIndex := blockIndex
     segmentIndex := 0 },
    batch.children)

/-- The records that are waiting make a block before this one joins them. -/
def Batch.Full (headers : List Text) (sourceRowIndex : Nat) (record : CsvRecord) (batch : Batch) :
    Prop :=
  batch.records ≠ [] ∧
    (csvParentMaxRows < (batch.records ++ [record]).length ∨
      csvParentMaxChars < (buildParentContent headers batch.startRow sourceRowIndex
        (batch.records ++ [record])).length)

instance (headers : List Text) (i : Nat) (record : CsvRecord) (batch : Batch) :
    Decidable (batch.Full headers i record) :=
  inferInstanceAs (Decidable (_ ∧ _))

/-- The block that is made before the record at `sourceRowIndex`. -/
def Batch.flushed (headers : List Text) (blockIndex sourceRowIndex : Nat) (record : CsvRecord)
    (batch : Batch) : List (ParentBlockData × List ChildChunkData) :=
  if batch.Full headers sourceRowIndex record then
    [flushBatch headers blockIndex (sourceRowIndex - 1) batch]
  else []

/-- The batch that the record joins. -/
def Batch.opened (headers : List Text) (sourceRowIndex : Nat) (record : CsvRecord) (batch : Batch) :
    Batch :=
  if batch.Full headers sourceRowIndex record then ⟨sourceRowIndex, [], []⟩ else batch

/-- The record is alone in its block, and too long for it. -/
def Batch.TooSmall (headers : List Text) (sourceRowIndex : Nat) (record : CsvRecord)
    (batch : Batch) : Prop :=
  batch.records = [] ∧ csvParentMaxChars < (buildParentContent headers batch.startRow sourceRowIndex
    (batch.records ++ [record])).length

instance (headers : List Text) (i : Nat) (record : CsvRecord) (batch : Batch) :
    Decidable (batch.TooSmall headers i record) :=
  inferInstanceAs (Decidable (_ ∧ _))

/-- The record and its child join the batch. -/
def Batch.add (sourceRowIndex : Nat) (record : CsvRecord) (batch : Batch) : Batch where
  startRow := batch.startRow
  records := batch.records ++ [record]
  children := batch.children ++ [{
    content := buildCsvChildContent record
    embeddingText := buildCsvEmbeddingText record
    chunkIndex := batch.children.length
    sectionPath := none
    sourceRowIndex := some sourceRowIndex
    chunkType := "csv_row" }]

/-- The loop over the rows, at the row of number `sourceRowIndex`. -/
def buildRows (headers : List Text) (failure : Option ReadError) (blockIndex sourceRowIndex : Nat)
    (batch : Batch) : List (List Text) →
    Except BuildError (List (ParentBlockData × List ChildChunkData))
  | [] =>
    match failure with
    | some e => .error (.read e)
    | none =>
      if batch.records = [] then .ok []
      else .ok [flushBatch headers blockIndex (batch.startRow + batch.records.length - 1) batch]
  | row :: rows =>
    let record := csvRecord headers row
    let flushed := batch.flushed headers blockIndex sourceRowIndex record
    let opened := batch.opened headers sourceRowIndex record
    if csvChildMaxChars < (buildCsvChildContent record).length then
      .error (.recordTooLarge sourceRowIndex)
    else if opened.TooSmall headers sourceRowIndex record then .error (.blockTooLarge sourceRowIndex)
    else do
      let blocks ← buildRows headers failure (blockIndex + flushed.length) (sourceRowIndex + 1)
        (opened.add sourceRowIndex record) rows
      return flushed ++ blocks

/-- The file that the chunker opens, and the header that the metadata has of it. -/
structure ChunkBuildInput where
  file : Text
  expectedHeaders : Option (List Text)
deriving DecidableEq, Repr

/-- `CsvChunker.build`. -/
def build (input : ChunkBuildInput) : Except BuildError ChunkBuildResult :=
  let (rows, failure) := (reader excel ⟨linesOf input.file, none⟩).content
  match rows with
  | [] => .error (failure.elim .missingHeaders .read)
  | headers :: rows =>
    if headers = [] then .error .missingHeaders
    else if input.expectedHeaders.getD [] ≠ [] ∧ input.expectedHeaders ≠ some headers then
      .error .headersDiffer
    -- a row without a field is no record
    else (buildRows headers failure 0 1 ⟨1, [], []⟩ (rows.filter fun row => row ≠ [])).map .ofBlocks

/-! ## The file in between -/

/-- **The cleaned file is read back with the header and the rows that were kept.** -/
theorem readText_cleaned {header : Record} {rows : List Record} {result : ProcessResult}
    (h : Accepted header.fields rows result)
    (hlimit : ∀ row ∈ header :: rows, ∀ field ∈ row.fields, field.length ≤ fieldLimit) :
    (reader excel ⟨linesOf result.cleaned, none⟩).content =
      (result.metadata.headers :: keptRows rows, none) := by
  rw [h.cleaned_eq]
  refine readText_writeRows plain_excel ?_ ?_
  · intro row hrow
    obtain rfl | hrow := List.mem_cons.mp hrow
    · exact h.headers_ne_nil
    · rintro rfl
      simp [keptRows, isBlankRow] at hrow
  · intro row hrow field hfield
    obtain rfl | hrow := List.mem_cons.mp hrow
    · rw [h.headers_eq] at hfield
      obtain ⟨name, hname, rfl⟩ := List.mem_map.mp hfield
      exact writable_normalizeHeader (hlimit header List.mem_cons_self name hname)
    · obtain ⟨source, hsource, rfl⟩ := List.mem_map.mp (List.mem_of_mem_filter hrow)
      obtain ⟨cell, hcell, rfl⟩ := List.mem_map.mp hfield
      exact writable_cleanCell (hlimit source (List.mem_cons_of_mem _ hsource) cell hcell)

/-! ## Records -/

/-- A row with a field for each of the different columns is their record. -/
theorem csvRecord_eq_zip {headers row : List Text} (hnodup : headers.Nodup)
    (hlength : row.length = headers.length) : csvRecord headers row = headers.zip row := by
  have hkeys : (headers.zip row).map Prod.fst = headers := List.map_fst_zip hlength.ge
  have hraw : rawRecord headers row =
      (headers.zip row).map fun field => (field.1, some field.2) := by
    rw [rawRecord, hlength, List.drop_length, List.map_nil, List.append_nil]
  have hrawNodup : ((rawRecord headers row).reverse.map Prod.fst).Nodup := by
    rw [List.map_reverse, List.nodup_reverse, hraw, List.map_map]
    rw [← hkeys] at hnodup
    exact hnodup
  have hmap : ∀ value : Text → Text,
      (∀ field ∈ headers.zip row, (field.1, value field.1) = field) →
      headers.map (fun header => (header, value header)) = headers.zip row := by
    intro value h
    calc headers.map (fun header => (header, value header))
        = ((headers.zip row).map Prod.fst).map fun header => (header, value header) := by rw [hkeys]
      _ = (headers.zip row).map fun field => field := by
          rw [List.map_map]
          exact List.map_congr_left h
      _ = headers.zip row := List.map_id' _
  rw [csvRecord, eraseDups_of_nodup hnodup]
  refine hmap _ ?_
  intro field hfield
  have hmem : (field.1, some field.2) ∈ (rawRecord headers row).reverse := by
    rw [List.mem_reverse, hraw]
    exact List.mem_map.mpr ⟨field, hfield, rfl⟩
  rw [lookup_of_mem hrawNodup hmem]
  rfl

/-- The text of a record with a value is not blank: it has a colon. -/
theorem strip_buildCsvEmbeddingText {record : CsvRecord} {field : Text × Text}
    (hfield : field ∈ record) (hvalue : field.2 ≠ []) :
    strip (buildCsvEmbeddingText record) ≠ [] := by
  intro hstrip
  have hcolon : '：' ∈ buildCsvEmbeddingText record := by
    refine mem_intercalate_of_mem _ (List.mem_map.mpr ⟨field, ?_, rfl⟩) ?_
    · exact List.mem_filter.mpr ⟨hfield, by simpa using hvalue⟩
    · exact List.mem_append_right _ List.mem_cons_self
  have hspace := ink_eq_nil.mp (strip_eq_nil.mp hstrip) '：' hcolon
  exact absurd hspace (by decide)

/-- A row that is not blank has a value in some column. -/
theorem exists_value {headers row : List Text} (hlength : row.length = headers.length)
    (hblank : isBlankRow row = false) : ∃ field ∈ headers.zip row, field.2 ≠ [] := by
  obtain ⟨cell, hcell, hne⟩ := List.all_eq_false.mp hblank
  obtain ⟨i, hi, rfl⟩ := List.mem_iff_getElem.mp hcell
  refine ⟨(headers[i], row[i]), ?_, by simpa using hne⟩
  rw [List.mem_iff_getElem]
  exact ⟨i, by rw [List.length_zip]; omega, by rw [List.getElem_zip]⟩

/-! ## The loop over the rows -/

/-- Rows with a field for each of the different columns, none of them blank. -/
structure Regular (headers : List Text) (rows : List (List Text)) : Prop where
  nodup : headers.Nodup
  columns : ∀ row ∈ rows, row.length = headers.length
  not_blank : ∀ row ∈ rows, isBlankRow row = false

theorem Regular.tail {headers row : List Text} {rows : List (List Text)}
    (h : Regular headers (row :: rows)) : Regular headers rows where
  nodup := h.nodup
  columns := fun r hr => h.columns r (List.mem_cons_of_mem _ hr)
  not_blank := fun r hr => h.not_blank r (List.mem_cons_of_mem _ hr)

theorem Regular.record_head {headers row : List Text} {rows : List (List Text)}
    (h : Regular headers (row :: rows)) : csvRecord headers row = headers.zip row :=
  csvRecord_eq_zip h.nodup (h.columns row List.mem_cons_self)

/-- The child of the row at `sourceRowIndex`. -/
structure ChildOf (headers row : List Text) (sourceRowIndex : Nat) (child : ChildChunkData) :
    Prop where
  content : child.content = buildCsvChildContent (headers.zip row)
  embeddingText : child.embeddingText = buildCsvEmbeddingText (headers.zip row)
  not_blank : strip child.embeddingText ≠ []
  sourceRowIndex : child.sourceRowIndex = some sourceRowIndex

/-- The errors of the size limits, for rows with their numbers. -/
inductive TooLarge (headers : List Text) (rows : List (List Text × Nat)) : BuildError → Prop
  | record (row : List Text) (i : Nat) (hmem : (row, i) ∈ rows)
      (hlarge : csvChildMaxChars < (buildCsvChildContent (headers.zip row)).length) :
      TooLarge headers rows (.recordTooLarge i)
  | block (row : List Text) (i : Nat) (hmem : (row, i) ∈ rows)
      (hlarge : csvParentMaxChars < (buildParentContent headers i i [headers.zip row]).length) :
      TooLarge headers rows (.blockTooLarge i)

theorem TooLarge.cons {headers : List Text} {rows : List (List Text × Nat)} {e : BuildError}
    (h : TooLarge headers rows e) (row : List Text × Nat) : TooLarge headers (row :: rows) e := by
  cases h with
  | record r i hmem hlarge => exact .record r i (List.mem_cons_of_mem _ hmem) hlarge
  | block r i hmem hlarge => exact .block r i (List.mem_cons_of_mem _ hmem) hlarge

/-- A batch before the row at `sourceRowIndex`. -/
structure Batch.Sound (sourceRowIndex : Nat) (batch : Batch) : Prop where
  length : batch.records.length = batch.children.length
  indices : batch.children.map (·.chunkIndex) = List.range batch.children.length
  startRow : batch.records = [] → batch.startRow = sourceRowIndex

theorem Batch.Sound.opened {i : Nat} {batch : Batch} (h : batch.Sound i) (headers : List Text)
    (record : CsvRecord) : (batch.opened headers i record).Sound i := by
  unfold Batch.opened
  split
  · exact ⟨rfl, rfl, fun _ => rfl⟩
  · exact h

theorem Batch.Sound.add {i : Nat} {batch : Batch} (h : batch.Sound i) (record : CsvRecord) :
    (batch.add i record).Sound (i + 1) where
  length := by simp [Batch.add, h.length]
  indices := by simp [Batch.add, h.indices, List.range_succ]
  startRow := by simp [Batch.add]

/-- Nothing that waited is lost when a block is made. -/
theorem Batch.flushed_opened (headers : List Text) (blockIndex i : Nat) (record : CsvRecord)
    (batch : Batch) :
    (batch.flushed headers blockIndex i record).flatMap Prod.snd ++
      (batch.opened headers i record).children = batch.children := by
  unfold Batch.flushed Batch.opened
  split
  · simp [flushBatch]
  · rfl

/-- Blocks with children: those that waited, and one for each row. -/
structure Built (headers : List Text) (rows : List (List Text × Nat))
    (waiting : List ChildChunkData) (blockIndex : Nat)
    (blocks : List (ParentBlockData × List ChildChunkData)) : Prop where
  children : ∃ new, blocks.flatMap Prod.snd = waiting ++ new ∧
    List.Forall₂ (fun row child => ChildOf headers row.1 row.2 child) rows new
  indices : blocks.map (·.1.blockIndex) = List.range' blockIndex blocks.length
  chunkIndices : ∀ block ∈ blocks,
    block.2 ≠ [] ∧ block.2.map (·.chunkIndex) = List.range block.2.length

/-- The children of a batch that is not empty. -/
theorem Batch.Sound.children_of_ne_nil {i : Nat} {batch : Batch} (h : batch.Sound i)
    (hne : batch.records ≠ []) :
    batch.children ≠ [] ∧
      batch.children.map (·.chunkIndex) = List.range batch.children.length := by
  refine ⟨?_, h.indices⟩
  intro hnil
  have hlength := h.length
  rw [hnil, List.length_nil, List.length_eq_zero_iff] at hlength
  exact hne hlength

theorem Batch.Sound.of_mem_flushed {i : Nat} {batch : Batch} (h : batch.Sound i)
    {headers : List Text} {blockIndex : Nat} {record : CsvRecord}
    {block : ParentBlockData × List ChildChunkData}
    (hblock : block ∈ batch.flushed headers blockIndex i record) :
    block.2 ≠ [] ∧ block.2.map (·.chunkIndex) = List.range block.2.length := by
  unfold Batch.flushed at hblock
  split at hblock
  · next hfull =>
    rw [List.mem_singleton.mp hblock]
    exact h.children_of_ne_nil hfull.1
  · cases hblock

theorem Batch.indices_flushed (headers : List Text) (blockIndex i : Nat) (record : CsvRecord)
    (batch : Batch) :
    (batch.flushed headers blockIndex i record).map (·.1.blockIndex) =
      List.range' blockIndex (batch.flushed headers blockIndex i record).length := by
  unfold Batch.flushed
  split <;> rfl

/-- What the loop gives, from any batch on. -/
theorem built_buildRows {headers : List Text} {rows : List (List Text)}
    (hregular : Regular headers rows) {blockIndex i : Nat} {batch : Batch} (hbatch : batch.Sound i)
    {blocks : List (ParentBlockData × List ChildChunkData)}
    (h : buildRows headers none blockIndex i batch rows = .ok blocks) :
    Built headers (rows.zipIdx i) batch.children blockIndex blocks := by
  induction rows generalizing blockIndex i batch blocks with
  | nil =>
    rw [buildRows] at h
    by_cases hempty : batch.records = []
    · simp only [if_pos hempty] at h
      cases h
      have hchildren : batch.children = [] := by
        rw [← List.length_eq_zero_iff, ← hbatch.length, hempty]
        rfl
      exact ⟨⟨[], by simp [hchildren], .nil⟩, rfl, by simp⟩
    · simp only [if_neg hempty] at h
      cases h
      refine ⟨⟨[], by simp [flushBatch], .nil⟩, rfl, ?_⟩
      intro block hblock
      rw [List.mem_singleton.mp hblock]
      exact hbatch.children_of_ne_nil hempty
  | cons row rows ih =>
    rw [buildRows] at h
    split at h
    · cases h
    split at h
    · cases h
    have hopened := hbatch.opened headers (csvRecord headers row)
    cases hrest : buildRows headers none
        (blockIndex + (batch.flushed headers blockIndex i (csvRecord headers row)).length) (i + 1)
        ((batch.opened headers i (csvRecord headers row)).add i (csvRecord headers row)) rows with
    | error e =>
      rw [hrest] at h
      cases h
    | ok rest =>
      rw [hrest] at h
      cases h
      have hbuilt := ih hregular.tail (hopened.add _) hrest
      obtain ⟨new, hnew, hall⟩ := hbuilt.children
      have hkept := batch.flushed_opened headers blockIndex i (csvRecord headers row)
      have hrecord := hregular.record_head
      obtain ⟨field, hfield, hvalue⟩ := exists_value (hregular.columns row List.mem_cons_self)
        (hregular.not_blank row List.mem_cons_self)
      have hchild : ChildOf headers row i
          { content := buildCsvChildContent (csvRecord headers row)
            embeddingText := buildCsvEmbeddingText (csvRecord headers row)
            chunkIndex := (batch.opened headers i (csvRecord headers row)).children.length
            sectionPath := none
            sourceRowIndex := some i
            chunkType := "csv_row" } := by
        rw [hrecord]
        exact ⟨rfl, rfl, strip_buildCsvEmbeddingText hfield hvalue, rfl⟩
      refine ⟨⟨_ :: new, ?_, .cons hchild hall⟩, ?_, ?_⟩
      · rw [List.flatMap_append, hnew, ← List.append_assoc, Batch.add, ← List.append_assoc, hkept,
          List.append_assoc]
        rfl
      · rw [List.map_append, batch.indices_flushed, hbuilt.indices, List.range'_append_1,
          List.length_append]
      · intro block hblock
        obtain hblock | hblock := List.mem_append.mp hblock
        · exact hbatch.of_mem_flushed hblock
        · exact hbuilt.chunkIndices block hblock

/-- The loop fails only at a row that is too large. -/
theorem error_of_buildRows {headers : List Text} {rows : List (List Text)}
    (hregular : Regular headers rows) {blockIndex i : Nat} {batch : Batch} (hbatch : batch.Sound i)
    {e : BuildError} (h : buildRows headers none blockIndex i batch rows = .error e) :
    TooLarge headers (rows.zipIdx i) e := by
  induction rows generalizing blockIndex i batch with
  | nil =>
    rw [buildRows] at h
    split at h
    all_goals cases h
  | cons row rows ih =>
    have hrecord := hregular.record_head
    have hopened := hbatch.opened headers (csvRecord headers row)
    rw [buildRows] at h
    split at h
    · next hlarge =>
      cases h
      rw [hrecord] at hlarge
      exact .record row i List.mem_cons_self hlarge
    split at h
    · next hsmall =>
      cases h
      obtain ⟨hempty, hlarge⟩ := hsmall
      rw [hopened.startRow hempty, hempty, hrecord] at hlarge
      exact .block row i List.mem_cons_self hlarge
    · cases hrest : buildRows headers none
          (blockIndex + (batch.flushed headers blockIndex i (csvRecord headers row)).length) (i + 1)
          ((batch.opened headers i (csvRecord headers row)).add i (csvRecord headers row)) rows with
      | ok rest =>
        rw [hrest] at h
        cases h
      | error e' =>
        rw [hrest] at h
        cases h
        exact (ih hregular.tail (hopened.add _) hrest).cons (row, i)

/-! ## The check of the use case -/

def toPipelineChild (child : ChildChunkData) : Pipeline.ChildChunkData where
  embeddingText := String.ofList child.embeddingText
  chunkIndex := child.chunkIndex
  sectionPath := child.sectionPath.map (List.map String.ofList)
  sourceRowIndex := child.sourceRowIndex.map Int.ofNat

/-- The answer of a chunker, as `build_chunks.py` receives it. -/
def toPipeline (chunks : ChunkBuildResult) (h : (chunks.childrenByParentIndex.map Prod.fst).Nodup) :
    Pipeline.ChunkBuildResult where
  parents := chunks.parents.map fun parent =>
    { content := String.ofList parent.content, blockIndex := parent.blockIndex }
  childrenByParentIndex := chunks.childrenByParentIndex.map fun entry =>
    ((entry.1 : Int), entry.2.map toPipelineChild)
  nodup := by
    rw [List.map_map]
    have hmap := h.map (f := fun i : Nat => (i : Int)) fun i j hij => Int.ofNat.inj hij
    rwa [List.map_map] at hmap

theorem not_isBlank_ofList {s : Text} (h : strip s ≠ []) :
    PyString.isBlank (String.ofList s) = false := by
  rw [← Bool.not_eq_true, PyString.isBlank, String.toList_ofList, List.all_eq_true]
  exact fun hall => h (strip_eq_nil.mpr (ink_eq_nil.mpr hall))

theorem not_blank_of_childOf {headers : List Text} {rows : List (List Text × Nat)}
    {children : List ChildChunkData}
    (h : List.Forall₂ (fun row child => ChildOf headers row.1 row.2 child) rows children) :
    ∀ child ∈ children, strip child.embeddingText ≠ [] := by
  induction h with
  | nil => simp
  | cons hchild hall ih => exact List.forall_mem_cons.mpr ⟨hchild.not_blank, ih⟩

section Built

variable {headers : List Text} {rows : List (List Text × Nat)}
  {blocks : List (ParentBlockData × List ChildChunkData)}

theorem blocks_eq_nil_iff (h : Built headers rows [] 0 blocks) : blocks = [] ↔ rows = [] := by
  obtain ⟨new, hnew, hall⟩ := h.children
  rw [List.nil_append] at hnew
  constructor
  · rintro rfl
    rw [List.flatMap_nil] at hnew
    rw [← hnew] at hall
    exact List.forall₂_nil_right_iff.mp hall
  · rintro rfl
    rw [List.forall₂_nil_left_iff.mp hall, List.flatMap_eq_nil_iff] at hnew
    refine List.eq_nil_iff_forall_not_mem.mpr fun block hblock => ?_
    exact (h.chunkIndices block hblock).1 (hnew block hblock)

/-- The children of a block are counted from zero, and none is blank. -/
theorem validateChildren_of_built (h : Built headers rows [] 0 blocks)
    {block : ParentBlockData × List ChildChunkData} (hblock : block ∈ blocks) :
    Pipeline.validateChildren (block.2.map toPipelineChild) = .ok () := by
  apply Pipeline.validateChildren_eq_ok
  · have hcast : (block.2.map toPipelineChild).map (·.chunkIndex) =
        (block.2.map (·.chunkIndex)).map fun i : Nat => (i : Int) := by
      simp [toPipelineChild, List.map_map, Function.comp_def]
    rw [hcast, (h.chunkIndices block hblock).2]
    exact List.nodup_range.map fun i j hij => Int.ofNat.inj hij
  · intro child hchild
    obtain ⟨source, hsource, rfl⟩ := List.mem_map.mp hchild
    obtain ⟨new, hnew, hall⟩ := h.children
    have hmem : source ∈ new := by
      rw [List.nil_append] at hnew
      rw [← hnew]
      exact List.mem_flatMap.mpr ⟨block, hblock, hsource⟩
    exact not_isBlank_ofList (not_blank_of_childOf hall source hmem)

/-- Blocks that hold their children are accepted, if there are any. -/
theorem validate_ofBlocks (h : Built headers rows [] 0 blocks)
    (hnodup : ((ChunkBuildResult.ofBlocks blocks).childrenByParentIndex.map Prod.fst).Nodup) :
    Pipeline.validateChunkBuildResult (toPipeline (.ofBlocks blocks) hnodup) = .ok () ↔
      rows ≠ [] := by
  rw [ne_eq, ← blocks_eq_nil_iff h]
  by_cases hblocks : blocks = []
  · subst hblocks
    constructor
    · intro hvalid
      cases hvalid
    · exact fun hne => absurd rfl hne
  obtain ⟨first, hfirst⟩ := List.exists_mem_of_ne_nil blocks hblocks
  have hparents : (toPipeline (.ofBlocks blocks) hnodup).parents ≠ [] := by
    simpa [toPipeline, ChunkBuildResult.ofBlocks] using hblocks
  have hindices : (toPipeline (.ofBlocks blocks) hnodup).parents.map (·.blockIndex) =
      (toPipeline (.ofBlocks blocks) hnodup).childrenByParentIndex.map Prod.fst := by
    simp [toPipeline, ChunkBuildResult.ofBlocks, List.map_map, Function.comp_def]
  have hlists : (toPipeline (.ofBlocks blocks) hnodup).childrenByParentIndex.map Prod.snd =
      blocks.map fun block => block.2.map toPipelineChild := by
    simp [toPipeline, ChunkBuildResult.ofBlocks, List.map_map, Function.comp_def]
  have hcount : ((blocks.map fun block => block.2.map toPipelineChild).map List.length).sum ≠ 0 := by
    intro hsum
    rw [List.sum_eq_zero_iff_forall_eq_nat] at hsum
    have hzero := hsum (first.2.map toPipelineChild).length
      (List.mem_map_of_mem (List.mem_map_of_mem (f := fun block => block.2.map toPipelineChild)
        hfirst))
    rw [List.length_map, List.length_eq_zero_iff] at hzero
    exact (h.chunkIndices first hfirst).1 hzero
  have hchildren : ∀ children ∈ blocks.map fun block => block.2.map toPipelineChild,
      Pipeline.validateChildren children = .ok () := by
    intro children hchildren
    obtain ⟨block, hblock, rfl⟩ := List.mem_map.mp hchildren
    exact validateChildren_of_built h hblock
  unfold Pipeline.validateChunkBuildResult
  simp only [hindices, hlists]
  rw [if_neg hparents, if_neg (not_not.mpr (toPipeline _ hnodup).nodup), if_neg hcount,
    if_neg (not_not.mpr fun i hi => hi), Pipeline.forM_validateChildren hchildren]
  simp [hblocks]

end Built

/-! ## The two together -/

/-- What the chunker makes of the rows: their children in order, in blocks that are accepted unless
there is no row. -/
structure OneChildPerRow (headers : List Text) (rows : List (List Text))
    (chunks : ChunkBuildResult) : Prop where
  children : List.Forall₂ (fun row child => ChildOf headers row.1 row.2 child) (rows.zipIdx 1)
    (chunks.parents.flatMap chunks.children)
  nodup : (chunks.childrenByParentIndex.map Prod.fst).Nodup
  valid : Pipeline.validateChunkBuildResult (toPipeline chunks nodup) = .ok () ↔ rows ≠ []

theorem oneChildPerRow_ofBlocks {headers : List Text} {rows : List (List Text)}
    {blocks : List (ParentBlockData × List ChildChunkData)}
    (h : Built headers (rows.zipIdx 1) [] 0 blocks) :
    OneChildPerRow headers rows (.ofBlocks blocks) := by
  obtain ⟨new, hnew, hall⟩ := h.children
  have hnodup : (blocks.map fun block => block.1.blockIndex).Nodup := by
    rw [h.indices]
    exact List.nodup_range'
  have hkeys : ((ChunkBuildResult.ofBlocks blocks).childrenByParentIndex.map Prod.fst).Nodup := by
    simpa [ChunkBuildResult.ofBlocks, List.map_map, Function.comp_def] using hnodup
  have hchildren : (ChunkBuildResult.ofBlocks blocks).parents.flatMap
      (ChunkBuildResult.ofBlocks blocks).children = blocks.flatMap Prod.snd := by
    rw [ChunkBuildResult.ofBlocks, List.flatMap_map]
    refine List.flatMap_congr fun block hblock => ?_
    exact ChunkBuildResult.children_ofBlocks hnodup hblock
  refine ⟨?_, hkeys, ?_⟩
  · rw [hchildren, hnew]
    exact hall
  · rw [validate_ofBlocks h hkeys]
    simp

theorem regular_of_accepted {headers : List Text} {rows : List Record} {result : ProcessResult}
    (h : Accepted headers rows result) : Regular result.metadata.headers (keptRows rows) where
  nodup := h.nodup
  columns := h.columns
  not_blank := by
    intro row hrow
    simpa using (List.mem_filter.mp hrow).2

/-- The chunker reads the header and the rows of the source that were kept, and makes a child of each
of them, unless one is too large. -/
def Agrees (source : Records) (result : ProcessResult) : Prop :=
  ∃ header rows, source = ⟨header :: rows, none⟩ ∧
    result.metadata.headers = header.fields.map normalizeHeader ∧
    (reader excel ⟨linesOf result.cleaned, none⟩).content =
      (result.metadata.headers :: keptRows rows, none) ∧
    match build ⟨result.cleaned, some result.metadata.headers⟩ with
    | .error e => TooLarge result.metadata.headers ((keptRows rows).zipIdx 1) e
    | .ok chunks => OneChildPerRow result.metadata.headers (keptRows rows) chunks

/-- **Processing and chunking agree.** -/
theorem csv_loses_nothing {sniff : Text → Option Dialect} {file : SourceFile}
    {result : ProcessResult} (h : process sniff file = .ok result) :
    Agrees (sourceRecords sniff file result.metadata.sourceEncoding).2 result := by
  obtain ⟨header, rows, hrecords, haccepted⟩ := process_eq_ok h
  have hlimit : ∀ row ∈ header :: rows, ∀ field ∈ row.fields, field.length ≤ fieldLimit := by
    intro row hrow field hfield
    have hsource : row ∈ (sourceRecords sniff file result.metadata.sourceEncoding).2.rows := by
      rw [hrecords]
      exact hrow
    exact length_le_of_mem_readRows limited_reset hsource hfield
  have hread := readText_cleaned haccepted hlimit
  have hregular := regular_of_accepted haccepted
  refine ⟨header, rows, hrecords, haccepted.headers_eq, hread, ?_⟩
  have hfilter : (keptRows rows).filter (fun row => row ≠ []) = keptRows rows := by
    rw [List.filter_eq_self]
    intro row hrow
    have hblank := hregular.not_blank row hrow
    rw [decide_eq_true_eq]
    rintro rfl
    cases hblank
  have hbuild : build ⟨result.cleaned, some result.metadata.headers⟩ =
      (buildRows result.metadata.headers none 0 1 ⟨1, [], []⟩ (keptRows rows)).map .ofBlocks := by
    unfold build
    rw [hread]
    simp only
    rw [if_neg haccepted.headers_ne_nil, if_neg (fun hdiffer => hdiffer.2 rfl), hfilter]
  have hempty : Batch.Sound 1 ⟨1, [], []⟩ := ⟨rfl, rfl, fun _ => rfl⟩
  rw [hbuild]
  cases hrows : buildRows result.metadata.headers none 0 1 ⟨1, [], []⟩ (keptRows rows) with
  | error e => exact error_of_buildRows hregular hempty hrows
  | ok blocks => exact oneChildPerRow_ofBlocks (built_buildRows hregular hempty hrows)

/-- A quoted cell, a blank row and a name with a line break in it. -/
theorem csv_loses_nothing_quoted :
    let text : Text := "name,\"the\n value\"\r\na,\"1, \"\"2\"\"\"\r\n , \r\n\r\nb,\r\n".toList
    let file : SourceFile := ⟨42, false, fun _ => some text, fun _ => ⟨linesOf text, none⟩⟩
    ∃ result, process (fun _ => none) file = .ok result ∧
      result.cleaned = "name,the value\na,\"1, \"\"2\"\"\"\nb,\n".toList ∧
      Agrees (sourceRecords (fun _ => none) file result.metadata.sourceEncoding).2 result := by
  refine ⟨_, rfl, ?_, csv_loses_nothing rfl⟩
  decide +kernel

end DocFlow.CsvChunker
