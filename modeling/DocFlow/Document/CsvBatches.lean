import DocFlow.Document.CsvChunks

/-!
# The batches of a CSV file

The rows that `CsvChunker.build` does not reject are cut into batches, a block each
(`batching_is_greedy`): the batches follow each other, keep the limits, and end only where the next
row would break one.

`Waiting` is the invariant of the loop: the records that wait are the rows behind the last block.
-/

namespace DocFlow.CsvChunker

open Text Csv
open Chunker (ChunkBuildResult ParentBlockData ChildChunkData)

/-- Records that follow each other, from a row on. -/
structure Rows where
  start : Nat
  records : List CsvRecord
deriving DecidableEq, Repr

/-- The records, each with the number of its row. -/
def Rows.numbered (b : Rows) : List (CsvRecord × Nat) := b.records.zipIdx b.start

def Rows.last (b : Rows) : Nat := b.start + b.records.length - 1

/-- What is written of the rows in a block. -/
def Rows.content (headers : List Text) (b : Rows) : Text :=
  buildParentContent headers b.start b.last b.records

def Rows.parent (headers : List Text) (b : Rows) (blockIndex : Nat) : ParentBlockData where
  blockType := "csv_rows"
  title := some (blockTitle b.start b.last)
  sectionPath := none
  content := b.content headers
  blockIndex := blockIndex
  semanticGroupIndex := blockIndex
  segmentIndex := 0

/-- A child for each of the rows. -/
def Rows.children (b : Rows) : List ChildChunkData :=
  b.records.zipIdx.map fun record =>
    { content := buildCsvChildContent record.1
      embeddingText := buildCsvEmbeddingText record.1
      chunkIndex := record.2
      sectionPath := none
      sourceRowIndex := some (b.start + record.2)
      chunkType := "csv_row" }

def Rows.add (b : Rows) (record : CsvRecord) : Rows := ⟨b.start, b.records ++ [record]⟩

/-- Rows of a block. -/
structure Rows.Fits (headers : List Text) (b : Rows) : Prop where
  ne_nil : b.records ≠ []
  rows : b.records.length ≤ csvParentMaxRows
  chars : (b.content headers).length ≤ csvParentMaxChars

/-- With one more record the rows are too many or too long. -/
def Rows.Breaks (headers : List Text) (b : Rows) (record : CsvRecord) : Prop :=
  csvParentMaxRows < (b.add record).records.length ∨
    csvParentMaxChars < ((b.add record).content headers).length

/-- The batches of some rows, as the blocks from an index on. -/
structure Batched (headers : List Text) (rows : Rows) (blockIndex : Nat) (batches : List Rows)
    (blocks : List (ParentBlockData × List ChildChunkData)) : Prop where
  partition : batches.flatMap Rows.numbered = rows.numbered
  fits : ∀ b ∈ batches, b.Fits headers
  greedy : batches.IsChain fun b b' => ∀ record ∈ b'.records.head?, b.Breaks headers record
  blocks_eq : blocks = (batches.zipIdx blockIndex).map fun b => (b.1.parent headers b.2, b.1.children)

/-! ## The loop -/

/-- The rows of a batch. -/
def Batch.rows (batch : Batch) : Rows := ⟨batch.startRow, batch.records⟩

/-- The records that wait before the row `i`. -/
structure Batch.Waiting (headers : List Text) (i : Nat) (batch : Batch) : Prop where
  next : batch.startRow + batch.records.length = i
  children : batch.children = batch.rows.children
  fits : batch.records ≠ [] → batch.rows.Fits headers

section

variable {headers : List Text} {i : Nat} {batch : Batch}

theorem Batch.Waiting.flushBatch_eq (h : batch.Waiting headers i) (blockIndex : Nat) {rowEnd : Nat}
    (hend : rowEnd = i - 1) :
    flushBatch headers blockIndex rowEnd batch =
      (batch.rows.parent headers blockIndex, batch.rows.children) := by
  have hlast : rowEnd = batch.rows.last := by rw [hend, ← h.next]; rfl
  rw [flushBatch, hlast, h.children]
  rfl

theorem Batch.Waiting.full_iff (h : batch.Waiting headers i) (record : CsvRecord) :
    batch.Full headers i record ↔ batch.records ≠ [] ∧ batch.rows.Breaks headers record := by
  have hlast : (batch.rows.add record).last = i := by
    rw [← h.next]
    show batch.startRow + (batch.records ++ [record]).length - 1 = _
    rw [List.length_append, List.length_singleton]
    omega
  rw [Batch.Full, Rows.Breaks, Rows.content, hlast]
  rfl

theorem Batch.Waiting.opened (h : batch.Waiting headers i) (record : CsvRecord) :
    (batch.opened headers i record).Waiting headers i := by
  unfold Batch.opened
  split
  · exact ⟨rfl, rfl, fun hne => absurd rfl hne⟩
  · exact h

theorem rows_children_add (b : Rows) (record : CsvRecord) :
    (b.add record).children = b.children ++ [{
      content := buildCsvChildContent record
      embeddingText := buildCsvEmbeddingText record
      chunkIndex := b.records.length
      sectionPath := none
      sourceRowIndex := some (b.start + b.records.length)
      chunkType := "csv_row" }] := by
  rw [Rows.children, Rows.add, List.zipIdx_append, List.map_append, Nat.zero_add]
  rfl

/-- The record joins a batch that is not full. -/
theorem Batch.Waiting.add (h : batch.Waiting headers i) {record : CsvRecord}
    (hfull : ¬ batch.Full headers i record) (hsmall : ¬ batch.TooSmall headers i record) :
    (batch.add i record).Waiting headers (i + 1) := by
  have hlast : (batch.rows.add record).last = i := by
    rw [← h.next]
    show batch.startRow + (batch.records ++ [record]).length - 1 = _
    rw [List.length_append, List.length_singleton]
    omega
  have hlength : batch.children.length = batch.records.length := by
    rw [h.children, Rows.children, List.length_map, List.length_zipIdx]
    rfl
  refine ⟨?_, ?_, fun _ => ⟨by simp [Batch.rows, Batch.add], ?_, ?_⟩⟩
  · show batch.startRow + (batch.records ++ [record]).length = i + 1
    rw [List.length_append, List.length_singleton, ← h.next]
    omega
  · have hadd := rows_children_add batch.rows record
    rw [Batch.add, hlength, ← h.next, h.children]
    exact hadd.symm
  · show (batch.records ++ [record]).length ≤ csvParentMaxRows
    by_cases hempty : batch.records = []
    · rw [hempty, List.nil_append, List.length_singleton]
      decide
    · exact Nat.le_of_not_lt fun hlt => hfull ⟨hempty, .inl hlt⟩
  · show (Rows.content headers (batch.rows.add record)).length ≤ csvParentMaxChars
    rw [Rows.content, hlast]
    by_cases hempty : batch.records = []
    · exact Nat.le_of_not_lt fun hlt => hsmall ⟨hempty, hlt⟩
    · exact Nat.le_of_not_lt fun hlt => hfull ⟨hempty, .inr hlt⟩

end

/-- The batches begin with the records that waited. -/
def StartsWith (batches : List Rows) (records : List CsvRecord) : Prop :=
  records ≠ [] → ∃ b ∈ batches.head?, records <+: b.records

/-- **What the loop gives** are the batches of the records that waited and of the rows. -/
theorem batched_buildRows {headers : List Text} {rows : List (List Text)} {blockIndex i : Nat}
    {batch : Batch} (hbatch : batch.Waiting headers i)
    {blocks : List (ParentBlockData × List ChildChunkData)}
    (h : buildRows headers none blockIndex i batch rows = .ok blocks) :
    ∃ batches, Batched headers ⟨batch.startRow, batch.records ++ rows.map (csvRecord headers)⟩
        blockIndex batches blocks ∧ StartsWith batches batch.records := by
  induction rows generalizing blockIndex i batch blocks with
  | nil =>
    rw [buildRows] at h
    rw [List.map_nil, List.append_nil]
    by_cases hempty : batch.records = []
    · simp only [if_pos hempty] at h
      cases h
      refine ⟨[], ⟨?_, by simp, .nil, rfl⟩, fun hne => absurd hempty hne⟩
      rw [Rows.numbered, hempty]
      rfl
    · simp only [if_neg hempty] at h
      cases h
      have hend : batch.startRow + batch.records.length - 1 = i - 1 := by rw [hbatch.next]
      refine ⟨[batch.rows], ⟨?_, ?_, .singleton _, ?_⟩, fun _ => ⟨_, rfl, List.prefix_rfl⟩⟩
      · rw [List.flatMap_singleton]
        rfl
      · intro b hb
        rw [List.mem_singleton.mp hb]
        exact hbatch.fits hempty
      · rw [hbatch.flushBatch_eq blockIndex hend]
        rfl
  | cons row rows ih =>
    rw [buildRows] at h
    split at h
    · cases h
    split at h
    · cases h
    next hsmall =>
    have hopened := hbatch.opened (csvRecord headers row)
    have hnotFull : ¬ (batch.opened headers i (csvRecord headers row)).Full headers i
        (csvRecord headers row) := by
      by_cases hfull : batch.Full headers i (csvRecord headers row)
      · rw [Batch.opened, if_pos hfull]
        exact fun h => h.1 rfl
      · rw [Batch.opened, if_neg hfull]
        exact hfull
    cases hrest : buildRows headers none
        (blockIndex + (batch.flushed headers blockIndex i (csvRecord headers row)).length) (i + 1)
        ((batch.opened headers i (csvRecord headers row)).add i (csvRecord headers row)) rows with
    | error e =>
      rw [hrest] at h
      cases h
    | ok rest =>
      rw [hrest] at h
      cases h
      obtain ⟨batches, hbatched, hstarts⟩ := ih (hopened.add hnotFull hsmall) hrest
      by_cases hfull : batch.Full headers i (csvRecord headers row)
      · -- the batch is a block, and the record begins the next one
        simp only [Batch.opened, Batch.flushed, if_pos hfull, Batch.add, List.nil_append,
          List.singleton_append] at hbatched hstarts ⊢
        obtain ⟨hne, hbreaks⟩ := (hbatch.full_iff _).mp hfull
        refine ⟨batch.rows :: batches, ⟨?_, ?_, ?_, ?_⟩, fun _ => ⟨_, rfl, List.prefix_rfl⟩⟩
        · rw [List.flatMap_cons, hbatched.partition, Rows.numbered, Rows.numbered, Rows.numbered,
            List.map_cons, List.zipIdx_append, hbatch.next]
          rfl
        · rw [List.forall_mem_cons]
          exact ⟨hbatch.fits hne, hbatched.fits⟩
        · refine List.isChain_cons.mpr ⟨fun b hb record hrecord => ?_, hbatched.greedy⟩
          obtain ⟨b', hb', hfront⟩ := hstarts (List.cons_ne_nil _ _)
          rw [Option.mem_def] at hb hb' hrecord
          rw [hb] at hb'
          obtain rfl := Option.some.inj hb'
          obtain ⟨records, hrecords⟩ := hfront
          rw [← hrecords, List.singleton_append, List.head?_cons] at hrecord
          exact Option.some.inj hrecord ▸ hbreaks
        · rw [hbatch.flushBatch_eq blockIndex rfl, hbatched.blocks_eq]
          rfl
      · -- the record joins the batch
        simp only [Batch.opened, Batch.flushed, if_neg hfull, Batch.add, List.nil_append,
          List.length_nil, Nat.add_zero] at hbatched hstarts ⊢
        refine ⟨batches, ?_, fun _ => ?_⟩
        · rw [List.append_assoc, List.singleton_append] at hbatched
          exact hbatched
        · obtain ⟨b, hb, hfront⟩ := hstarts (List.append_ne_nil_of_right_ne_nil _ (List.cons_ne_nil _ _))
          exact ⟨b, hb, (List.prefix_append _ _).trans hfront⟩

/-- A file that cannot be read to its end is rejected. -/
theorem failure_eq_none {headers : List Text} {failure : Option ReadError} {rows : List (List Text)}
    {blockIndex i : Nat} {batch : Batch} {blocks : List (ParentBlockData × List ChildChunkData)}
    (h : buildRows headers failure blockIndex i batch rows = .ok blocks) : failure = none := by
  induction rows generalizing blockIndex i batch blocks with
  | nil =>
    cases failure with
    | none => rfl
    | some e => cases h
  | cons row rows ih =>
    rw [buildRows] at h
    split at h
    · cases h
    split at h
    · cases h
    cases hrest : buildRows headers failure
        (blockIndex + (batch.flushed headers blockIndex i (csvRecord headers row)).length) (i + 1)
        ((batch.opened headers i (csvRecord headers row)).add i (csvRecord headers row)) rows with
    | error e =>
      rw [hrest] at h
      cases h
    | ok rest => exact ih hrest

/-! ## The chunker -/

/-- The batches of the rows of a file, and the blocks that the chunker makes of them: the block of a
batch has the range, the records and the children of its rows. -/
structure Batching (headers : List Text) (rows : List (List Text)) (result : ChunkBuildResult)
    (batches : List Rows) : Prop where
  partition : batches.flatMap Rows.numbered = (rows.map (csvRecord headers)).zipIdx 1
  fits : ∀ b ∈ batches, b.Fits headers
  greedy : batches.IsChain fun b b' => ∀ record ∈ b'.records.head?, b.Breaks headers record
  parents_eq : result.parents = batches.zipIdx.map fun b => b.1.parent headers b.2
  children_eq : ∀ (i : Nat) (b : Rows), batches[i]? = some b →
    result.children (b.parent headers i) = b.children
  block_indices : result.parents.map ParentBlockData.blockIndex = List.range batches.length
  chunk_indices : ∀ b ∈ batches, b.children.map ChildChunkData.chunkIndex =
    List.range b.records.length

theorem batching_ofBlocks {headers : List Text} {rows : List (List Text)} {batches : List Rows}
    {blocks : List (ParentBlockData × List ChildChunkData)}
    (h : Batched headers ⟨1, rows.map (csvRecord headers)⟩ 0 batches blocks) :
    Batching headers rows (.ofBlocks blocks) batches := by
  have hindices : blocks.map (fun block => block.1.blockIndex) = List.range' 0 batches.length := by
    rw [h.blocks_eq, List.map_map, ← List.zipIdx_map_snd 0 batches]
    rfl
  refine ⟨h.partition, h.fits, h.greedy, ?_, fun i b hb => ?_, ?_, fun b _ => ?_⟩
  · rw [h.blocks_eq, ChunkBuildResult.ofBlocks, List.map_map]
    rfl
  · have hblock : (b.parent headers i, b.children) ∈ blocks := by
      rw [h.blocks_eq]
      refine List.mem_map.mpr ⟨(b, i), List.mem_zipIdx_iff_getElem?.mpr hb, rfl⟩
    exact ChunkBuildResult.children_ofBlocks (hindices ▸ List.nodup_range') hblock
  · rw [ChunkBuildResult.ofBlocks, List.map_map, List.range_eq_range']
    exact hindices
  · rw [Rows.children, List.map_map, List.range_eq_range', ← List.zipIdx_map_snd 0 b.records]
    rfl

/-- **The rows of a file that is not rejected are batched greedily.**  The batches follow each other;
each keeps the limits, and could not have taken the next row. -/
theorem batching_is_greedy (input : ChunkBuildInput) (result : ChunkBuildResult)
    (h : build input = .ok result) :
    ∃ headers rows batches,
      (reader excel ⟨linesOf input.file, none⟩).content = (headers :: rows, none) ∧
        Batching headers (rows.filter fun row => row ≠ []) result batches := by
  unfold build at h
  cases hread : (reader excel ⟨linesOf input.file, none⟩).content with
  | mk rows failure =>
    rw [hread] at h
    cases rows with
    | nil => cases h
    | cons headers rows =>
      simp only at h
      split at h
      · cases h
      split at h
      · cases h
      cases hrows : buildRows headers failure 0 1 ⟨1, [], []⟩ (rows.filter fun row => row ≠ []) with
      | error e =>
        rw [hrows] at h
        cases h
      | ok blocks =>
        rw [hrows] at h
        cases h
        obtain rfl := failure_eq_none hrows
        have hempty : Batch.Waiting headers 1 ⟨1, [], []⟩ := ⟨rfl, rfl, fun hne => absurd rfl hne⟩
        obtain ⟨batches, hbatched, -⟩ := batched_buildRows hempty hrows
        exact ⟨headers, rows, batches, rfl, batching_ofBlocks hbatched⟩

/-- One row more than a block may have. -/
def fiftyOneRows : ChunkBuildInput :=
  ⟨"a,b\n".toList ++ (List.replicate (csvParentMaxRows + 1) "1,2\n".toList).flatten, none⟩

/-- The rows make two batches. -/
theorem batching_is_greedy_two :
    ∃ result, build fiftyOneRows = .ok result ∧ result.parents.length = 2 ∧
      ∃ headers rows batches,
        (reader excel ⟨linesOf fiftyOneRows.file, none⟩).content = (headers :: rows, none) ∧
          Batching headers (rows.filter fun row => row ≠ []) result batches := by
  have hlength : (build fiftyOneRows).toOption.map (fun result => result.parents.length) = some 2 := by
    decide +kernel
  cases hbuild : build fiftyOneRows with
  | error e =>
    rw [hbuild] at hlength
    cases hlength
  | ok result =>
    rw [hbuild] at hlength
    exact ⟨result, rfl, Option.some.inj hlength, batching_is_greedy fiftyOneRows result hbuild⟩

end DocFlow.CsvChunker
