import DocFlow.Document.Markdown
import DocFlow.Document.Splitting

/-!
# The chunks of a Markdown document

`MarkdownChunker.build` cuts the cleaned text by the sections of `MdProcessor`: the body of a section
becomes segments, the parent blocks, and each segment becomes chunks, its children.

* `covers_extractSections`: the sections are one after the other, and no ink is outside of them.
* `markdown_loses_nothing`: block by block, and chunk by chunk, the ink of each body is there once
  and in order, and no block and no chunk is too long.
-/

namespace DocFlow.Chunker

open PyString (isSpace)
open Text Markdown Pattern

/-- Reading a text file: the line ends become newlines. -/
def universalNewlines (text : Text) : Text :=
  replaceChar '\r' '\n' (replacePair '\r' '\n' '\n' text)

/-- `_extract_section_content`. -/
def extractSectionContent (lines : List Text) (s : Section) : Text :=
  strip (['\n'].intercalate (s.bodyLines lines))

/-- The children of a segment. -/
def segmentChildren (sectionPath : Option (List Text)) (content : Text) : List ChildChunkData :=
  (splitTextToChildChunks childChunkMaxChars content).zipIdx.map fun chunk =>
    { content := chunk.1
      embeddingText := buildEmbeddingText sectionPath chunk.1
      chunkIndex := chunk.2
      sectionPath := sectionPath
      sourceRowIndex := none
      chunkType := "text" }

/-- `section.get("section_path") or None`. -/
def pathOf (s : Section) : Option (List Text) :=
  if s.sectionPath = [] then none else some s.sectionPath

/-- The blocks of a section, from the index `blockIndex` on. -/
def sectionBlocks (lines : List Text) (group blockIndex : Nat) (s : Section) :
    List (ParentBlockData × List ChildChunkData) :=
  let content := extractSectionContent lines s
  if content = [] then []
  else
    (splitTextToParentSegments parentBlockMaxChars content).zipIdx.map fun segment =>
      ({ blockType := "section"
         title := s.title
         sectionPath := pathOf s
         content := segment.1
         blockIndex := blockIndex + segment.2
         semanticGroupIndex := group
         segmentIndex := segment.2 },
        segmentChildren (pathOf s) segment.1)

/-- The loop over the sections. -/
def buildBlocks (lines : List Text) (group blockIndex : Nat) :
    List Section → List (ParentBlockData × List ChildChunkData)
  | [] => []
  | s :: sections =>
    let blocks := sectionBlocks lines group blockIndex s
    blocks ++ buildBlocks lines (group + 1) (blockIndex + blocks.length) sections

/-- `MarkdownChunker.build`, on the text of the file and the sections of the metadata. -/
def buildMarkdown (file : Text) (metadataSections : Option (List Section)) : ChunkBuildResult :=
  let lines := splitlines (universalNewlines file)
  let sections := metadataSections.getD []
  .ofBlocks (buildBlocks lines 0 0 (if sections = [] then parseSections lines else sections))

/-! ## The sections cover the text -/

/-- The sections run from one line to another without a gap. -/
def Runs : Nat → Nat → List Section → Prop
  | first, last, [] => first = last + 1
  | first, last, s :: sections =>
    s.startLine = first ∧ s.startLine ≤ s.endLine ∧ Runs (s.endLine + 1) last sections

/-- The sections are contiguous, in order and apart, and each line with ink is in one of them. -/
structure Covers (lines : List Text) (sections : List Section) : Prop where
  startLine_le : ∀ s ∈ sections, s.startLine ≤ s.endLine
  contiguous : sections.IsChain fun s t => t.startLine = s.endLine + 1
  apart : sections.Pairwise fun s t => s.endLine < t.startLine
  endLine_le : ∀ s ∈ sections, s.endLine ≤ lines.length
  covers : ∀ i line, lines[i]? = some line → strip line ≠ [] →
    ∃ s ∈ sections, s.startLine ≤ i + 1 ∧ i + 1 ≤ s.endLine

theorem Runs.le {first last : Nat} {sections : List Section} (h : Runs first last sections) :
    first ≤ last + 1 := by
  induction sections generalizing first with
  | nil => exact Nat.le_of_eq h
  | cons s sections ih =>
    obtain ⟨hstart, hle, hrest⟩ := h
    have hlast := ih hrest
    omega

theorem Runs.bounds {first last : Nat} {sections : List Section} (h : Runs first last sections) :
    ∀ s ∈ sections, first ≤ s.startLine ∧ s.startLine ≤ s.endLine ∧ s.endLine ≤ last := by
  induction sections generalizing first with
  | nil => simp
  | cons s sections ih =>
    obtain ⟨hstart, hle, hrest⟩ := h
    rw [List.forall_mem_cons]
    have hlast := hrest.le
    refine ⟨⟨hstart.ge, hle, by omega⟩, ?_⟩
    intro t ht
    have hbounds := ih hrest t ht
    omega

theorem Runs.apart {first last : Nat} {sections : List Section} (h : Runs first last sections) :
    sections.Pairwise fun s t => s.endLine < t.startLine := by
  induction sections generalizing first with
  | nil => exact .nil
  | cons s sections ih =>
    obtain ⟨-, -, hrest⟩ := h
    refine List.pairwise_cons.mpr ⟨fun t ht => ?_, ih hrest⟩
    have hbounds := hrest.bounds t ht
    omega

theorem Runs.contiguous {first last : Nat} {sections : List Section}
    (h : Runs first last sections) :
    sections.IsChain fun s t => t.startLine = s.endLine + 1 := by
  induction sections generalizing first with
  | nil => exact .nil
  | cons s sections ih =>
    obtain ⟨-, -, hrest⟩ := h
    cases sections with
    | nil => exact .singleton s
    | cons t sections => exact .cons_cons hrest.1 (ih hrest)

theorem Runs.covers {first last : Nat} {sections : List Section} (h : Runs first last sections)
    {n : Nat} (hfirst : first ≤ n) (hlast : n ≤ last) :
    ∃ s ∈ sections, s.startLine ≤ n ∧ n ≤ s.endLine := by
  induction sections generalizing first with
  | nil =>
    have hend : first = last + 1 := h
    omega
  | cons s sections ih =>
    obtain ⟨hstart, -, hrest⟩ := h
    by_cases hin : n ≤ s.endLine
    · exact ⟨s, List.mem_cons_self, by omega, hin⟩
    · obtain ⟨t, ht, hcover⟩ := ih hrest (by omega)
      exact ⟨t, List.mem_cons_of_mem s ht, hcover⟩

/-- The loop with a section open: the sections run from its start to the last line. -/
theorem runs_scanSections_some {heading : Text → Option Heading} (lines : List Text) (n : Nat)
    (stack : List Heading) (s : Section) (hs : s.startLine < n) :
    Runs s.startLine (n - 1 + lines.length) (scanSections heading n stack (some s) lines) := by
  induction lines generalizing n stack s with
  | nil => exact ⟨rfl, by show s.startLine ≤ n - 1; omega, rfl⟩
  | cons line lines ih =>
    have hlen : n - 1 + (line :: lines).length = n + 1 - 1 + lines.length := by
      rw [List.length_cons]
      omega
    rw [hlen]
    cases hline : heading line with
    | some h =>
      simp only [scanSections, hline, Option.map_some, Option.toList_some, List.singleton_append]
      refine ⟨rfl, by show s.startLine ≤ n - 1; omega, ?_⟩
      have hnext := ih (n + 1) (pushHeading stack h) ⟨some h.level, some h.title,
        (pushHeading stack h).map Heading.title, some n, n, n⟩ (Nat.lt_succ_self n)
      have hstart : n - 1 + 1 = n := by omega
      exact hstart.symm ▸ hnext
    | none =>
      simp only [scanSections, hline, reduceCtorEq, false_and, if_false]
      exact ih (n + 1) stack s (by omega)

/-- The loop with no section open: it skips blank lines first. -/
theorem runs_scanSections_none (heading : Text → Option Heading) (lines : List Text) (n : Nat)
    (hn : 0 < n) (stack : List Heading) :
    ∃ k ≤ lines.length, (∀ line ∈ lines.take k, strip line = []) ∧
      Runs (n + k) (n - 1 + lines.length) (scanSections heading n stack none lines) := by
  induction lines generalizing n stack with
  | nil => exact ⟨0, le_rfl, by simp, by show n + 0 = n - 1 + 0 + 1; omega⟩
  | cons line lines ih =>
    have hlen : n - 1 + (line :: lines).length = n + 1 - 1 + lines.length := by
      rw [List.length_cons]
      omega
    rw [hlen]
    cases hline : heading line with
    | some h =>
      simp only [scanSections, hline, Option.map_none, Option.toList_none, List.nil_append]
      exact ⟨0, Nat.zero_le _, by simp, runs_scanSections_some lines (n + 1) _ ⟨some h.level,
        some h.title, (pushHeading stack h).map Heading.title, some n, n, n⟩ (Nat.lt_succ_self n)⟩
    | none =>
      by_cases hblank : strip line = []
      · simp only [scanSections, hline, hblank, ne_eq, not_true_eq_false, and_false, if_false]
        obtain ⟨k, hk, hskip, hruns⟩ := ih (n + 1) (by omega) stack
        refine ⟨k + 1, by simpa using hk, ?_, ?_⟩
        · rw [List.take_succ_cons, List.forall_mem_cons]
          exact ⟨hblank, hskip⟩
        · have hfirst : n + (k + 1) = n + 1 + k := by omega
          exact hfirst ▸ hruns
      · simp only [scanSections, hline, hblank, ne_eq, not_false_eq_true, and_self, if_true]
        exact ⟨0, Nat.zero_le _, by simp, runs_scanSections_some lines (n + 1) stack
          ⟨none, none, [], none, n, n⟩ (Nat.lt_succ_self n)⟩

/-- **The sections of the loop cover the lines.** -/
theorem covers_scanSections (heading : Text → Option Heading) (lines : List Text) :
    Covers lines (scanSections heading 1 [] none lines) := by
  obtain ⟨k, hk, hskip, hruns⟩ := runs_scanSections_none heading lines 1 Nat.one_pos []
  rw [Nat.sub_self, Nat.zero_add] at hruns
  refine ⟨fun s hs => (hruns.bounds s hs).2.1, hruns.contiguous, hruns.apart,
    fun s hs => (hruns.bounds s hs).2.2, ?_⟩
  intro i line hget hink
  have hi : i < lines.length := (List.getElem?_eq_some_iff.mp hget).1
  apply hruns.covers
  · by_contra hlt
    refine hink (hskip line ?_)
    have htake : (lines.take k)[i]? = some line := by
      rw [List.getElem?_take_of_lt (by omega), hget]
    exact List.mem_of_getElem? htake
  · omega

/-! ## The blocks carry the bodies -/

/-- The parents of a section, by its index. -/
def ChunkBuildResult.parentsOf (result : ChunkBuildResult) (group : Nat) : List ParentBlockData :=
  result.parents.filter fun p => p.semanticGroupIndex = group

/-- Parents and children carry the ink of the bodies, section by section, and are of the right sizes
and under the right indices. -/
structure Carries (lines : List Text) (sections : List Section) (result : ChunkBuildResult) :
    Prop where
  parents_carry : ∀ i s, sections[i]? = some s →
    inks ((result.parentsOf i).map ParentBlockData.content) = inks (s.bodyLines lines)
  children_carry : ∀ i s, sections[i]? = some s →
    inks ((result.parentsOf i).flatMap fun p => (result.children p).map ChildChunkData.content) =
      inks (s.bodyLines lines)
  group_lt : ∀ p ∈ result.parents, p.semanticGroupIndex < sections.length
  parent_length : ∀ p ∈ result.parents, p.content.length ≤ parentBlockMaxChars
  child_length : ∀ entry ∈ result.childrenByParentIndex, ∀ c ∈ entry.2,
    c.content.length ≤ childChunkMaxChars
  parent_indices : result.parents.map ParentBlockData.blockIndex =
    List.range result.parents.length
  child_indices : result.childrenByParentIndex.map Prod.fst = List.range result.parents.length

section Blocks

variable {lines : List Text} {group blockIndex : Nat}

theorem ink_extractSectionContent (lines : List Text) (s : Section) :
    ink (extractSectionContent lines s) = inks (s.bodyLines lines) := by
  rw [extractSectionContent, ink_strip, ink_intercalate (by decide)]

theorem contents_segmentChildren (path : Option (List Text)) (content : Text) :
    (segmentChildren path content).map ChildChunkData.content =
      splitTextToChildChunks childChunkMaxChars content := by
  rw [segmentChildren, List.map_map]
  exact List.zipIdx_map_fst 0 _

/-- The blocks of a section carry its body. -/
theorem inks_sectionBlocks (s : Section) :
    inks ((sectionBlocks lines group blockIndex s).map fun b => b.1.content) =
      inks (s.bodyLines lines) := by
  rw [← ink_extractSectionContent]
  unfold sectionBlocks
  simp only
  split
  · next hempty => rw [hempty]; rfl
  · rw [List.map_map]
    exact (congrArg inks (List.zipIdx_map_fst 0 _)).trans
      (inks_splitTextToParentSegments (by decide) _)

/-- What holds of each block of a section: its group, its size and its children. -/
theorem of_mem_sectionBlocks {s : Section} {b : ParentBlockData × List ChildChunkData}
    (h : b ∈ sectionBlocks lines group blockIndex s) :
    b.1.semanticGroupIndex = group ∧ b.1.content.length ≤ parentBlockMaxChars ∧
      b.2.map ChildChunkData.content = splitTextToChildChunks childChunkMaxChars b.1.content := by
  unfold sectionBlocks at h
  simp only at h
  split at h
  · cases h
  · obtain ⟨⟨segment, i⟩, hmem, rfl⟩ := List.mem_map.mp h
    refine ⟨rfl, ?_, contents_segmentChildren _ _⟩
    exact within_splitTextToParentSegments _ segment (List.fst_mem_of_mem_zipIdx hmem)

theorem indices_sectionBlocks (s : Section) :
    (sectionBlocks lines group blockIndex s).map (fun b => b.1.blockIndex) =
      List.range' blockIndex (sectionBlocks lines group blockIndex s).length := by
  unfold sectionBlocks
  simp only
  split
  · rfl
  · rw [List.map_map, List.length_map, List.length_zipIdx]
    rw [show ((fun b : ParentBlockData × List ChildChunkData => b.1.blockIndex) ∘ fun segment =>
      (({ blockType := "section", title := s.title, sectionPath := pathOf s, content := segment.1,
          blockIndex := blockIndex + segment.2, semanticGroupIndex := group,
          segmentIndex := segment.2 } : ParentBlockData), segmentChildren (pathOf s) segment.1)) =
        (fun i => blockIndex + i) ∘ Prod.snd from rfl, ← List.map_map, List.zipIdx_map_snd,
      List.map_add_range', Nat.add_zero]

theorem indices_buildBlocks (sections : List Section) :
    (buildBlocks lines group blockIndex sections).map (fun b => b.1.blockIndex) =
      List.range' blockIndex (buildBlocks lines group blockIndex sections).length := by
  induction sections generalizing group blockIndex with
  | nil => rfl
  | cons s sections ih =>
    rw [buildBlocks, List.map_append, indices_sectionBlocks, ih, List.length_append,
      List.range'_append_1]

theorem of_mem_buildBlocks {sections : List Section} {b : ParentBlockData × List ChildChunkData}
    (h : b ∈ buildBlocks lines group blockIndex sections) :
    group ≤ b.1.semanticGroupIndex ∧ b.1.semanticGroupIndex < group + sections.length ∧
      b.1.content.length ≤ parentBlockMaxChars ∧
      b.2.map ChildChunkData.content = splitTextToChildChunks childChunkMaxChars b.1.content := by
  induction sections generalizing group blockIndex with
  | nil => cases h
  | cons s sections ih =>
    rw [List.length_cons]
    obtain h | h := List.mem_append.mp h
    · obtain ⟨hgroup, hrest⟩ := of_mem_sectionBlocks h
      exact ⟨by omega, by omega, hrest⟩
    · obtain ⟨hfirst, hlast, hrest⟩ := ih h
      exact ⟨by omega, by omega, hrest⟩

/-- The blocks of one group are those of its section. -/
theorem inks_buildBlocks (lines : List Text) (group blockIndex : Nat) {sections : List Section}
    {i : Nat} {s : Section} (h : sections[i]? = some s) :
    inks (((buildBlocks lines group blockIndex sections).filter fun b =>
      b.1.semanticGroupIndex = group + i).map fun b => b.1.content) = inks (s.bodyLines lines) := by
  induction sections generalizing group blockIndex i with
  | nil => simp at h
  | cons head sections ih =>
    rw [buildBlocks, List.filter_append]
    cases i with
    | zero =>
      obtain rfl : head = s := by simpa using h
      have hall : (sectionBlocks lines group blockIndex head).filter
          (fun b => b.1.semanticGroupIndex = group + 0) =
          sectionBlocks lines group blockIndex head := by
        apply List.filter_eq_self.mpr
        intro b hb
        exact decide_eq_true (of_mem_sectionBlocks hb).1
      have hnone : (buildBlocks lines (group + 1)
          (blockIndex + (sectionBlocks lines group blockIndex head).length) sections).filter
          (fun b => b.1.semanticGroupIndex = group + 0) = [] := by
        apply List.filter_eq_nil_iff.mpr
        intro b hb hgroup
        have hfirst := (of_mem_buildBlocks hb).1
        have heq := of_decide_eq_true hgroup
        omega
      rw [hall, hnone, List.append_nil, inks_sectionBlocks]
    | succ i =>
      have hnone : (sectionBlocks lines group blockIndex head).filter
          (fun b => b.1.semanticGroupIndex = group + (i + 1)) = [] := by
        apply List.filter_eq_nil_iff.mpr
        intro b hb hgroup
        have hgroup' := (of_mem_sectionBlocks hb).1
        have heq := of_decide_eq_true hgroup
        omega
      have hshift : group + (i + 1) = group + 1 + i := by omega
      rw [hnone, List.nil_append, hshift]
      exact ih _ _ (by simpa using h)

end Blocks

theorem parentsOf_ofBlocks (blocks : List (ParentBlockData × List ChildChunkData)) (group : Nat) :
    (ChunkBuildResult.ofBlocks blocks).parentsOf group =
      (blocks.filter fun b => b.1.semanticGroupIndex = group).map Prod.fst := by
  rw [ChunkBuildResult.parentsOf, ChunkBuildResult.ofBlocks, List.filter_map]
  rfl

/-- **The blocks of the sections carry their bodies.** -/
theorem carries_buildBlocks (lines : List Text) (sections : List Section) :
    Carries lines sections (.ofBlocks (buildBlocks lines 0 0 sections)) := by
  have hindices : (buildBlocks lines 0 0 sections).map (fun b => b.1.blockIndex) =
      List.range (buildBlocks lines 0 0 sections).length := by
    rw [indices_buildBlocks, List.range_eq_range']
  have hnodup : ((buildBlocks lines 0 0 sections).map fun b => b.1.blockIndex).Nodup := by
    rw [hindices]
    exact List.nodup_range
  have hparents : ∀ i s, sections[i]? = some s →
      inks (((ChunkBuildResult.ofBlocks (buildBlocks lines 0 0 sections)).parentsOf i).map
        ParentBlockData.content) = inks (s.bodyLines lines) := by
    intro i s hget
    have hinks := inks_buildBlocks lines 0 0 hget
    rw [Nat.zero_add] at hinks
    rw [parentsOf_ofBlocks, List.map_map]
    exact hinks
  refine ⟨hparents, ?_, ?_, ?_, ?_, ?_, ?_⟩
  · intro i s hget
    rw [← hparents i s hget, parentsOf_ofBlocks, List.flatMap_map, List.map_map]
    have hsame : ∀ bs : List (ParentBlockData × List ChildChunkData),
        (∀ b ∈ bs, b ∈ buildBlocks lines 0 0 sections) →
        inks (bs.flatMap fun b => ((ChunkBuildResult.ofBlocks
          (buildBlocks lines 0 0 sections)).children b.1).map ChildChunkData.content) =
        inks (bs.map (ParentBlockData.content ∘ Prod.fst)) := by
      intro bs hbs
      induction bs with
      | nil => rfl
      | cons b bs ih =>
        rw [List.forall_mem_cons] at hbs
        rw [List.flatMap_cons, inks_append, ih hbs.2, List.map_cons, inks_cons,
          ChunkBuildResult.children_ofBlocks hnodup hbs.1, (of_mem_buildBlocks hbs.1).2.2.2,
          inks_splitTextToChildChunks (by decide)]
        rfl
    exact hsame _ fun b hb => List.mem_of_mem_filter hb
  · intro p hp
    obtain ⟨b, hb, rfl⟩ := List.mem_map.mp hp
    have hlast := (of_mem_buildBlocks hb).2.1
    omega
  · intro p hp
    obtain ⟨b, hb, rfl⟩ := List.mem_map.mp hp
    exact (of_mem_buildBlocks hb).2.2.1
  · intro entry hentry c hc
    obtain ⟨b, hb, rfl⟩ := List.mem_map.mp hentry
    have hcontents := (of_mem_buildBlocks hb).2.2.2
    apply within_splitTextToChildChunks b.1.content
    rw [← hcontents]
    exact List.mem_map_of_mem hc
  · simpa [ChunkBuildResult.ofBlocks, List.map_map, Function.comp_def] using hindices
  · simpa [ChunkBuildResult.ofBlocks, List.map_map, Function.comp_def] using hindices

/-! ## The file in between -/

theorem universalNewlines_of_not_mem {s : Text} (h : '\r' ∉ s) : universalNewlines s = s := by
  rw [universalNewlines, replacePair_of_not_mem h, replaceChar]
  have hsame : ∀ c ∈ s, (if c = '\r' then '\n' else c) = id c := by
    intro c hc
    have hne : c ≠ '\r' := by
      rintro rfl
      exact h hc
    rw [if_neg hne, id]
  rw [List.map_congr_left hsame, List.map_id]

theorem mem_title {line : Text} {h : Heading} (hheading : processorHeading line = some h) {c : Char}
    (hc : c ∈ h.title) : c ∈ line := by
  unfold processorHeading at hheading
  split at hheading
  · next title _ hmatch =>
    obtain rfl := Option.some.inj hheading
    have htitle : c ∈ title :=
      (List.dropWhile_sublist _).subset (List.mem_reverse.mp
        ((List.dropWhile_sublist _).subset (List.mem_reverse.mp hc)))
    obtain ⟨-, heq | heq⟩ := fits_of_matchGroups hmatch
    · rw [heq]
      simp [htitle]
    · rw [heq]
      simp [htitle]
  · cases hheading

theorem mem_cleanLine {line : Text} {c : Char} (hc : c ∈ cleanLine line) :
    c = '#' ∨ c = ' ' ∨ c ∈ line := by
  unfold cleanLine at hc
  split at hc
  · next h hheading =>
    obtain hc | hc := List.mem_append.mp hc
    · exact .inl (List.eq_of_mem_replicate hc)
    · obtain rfl | hc := List.mem_cons.mp hc
      · exact .inr (.inl rfl)
      · exact .inr (.inr (mem_title hheading hc))
  · exact .inr (.inr hc)

theorem mem_cleanLines {cleaned rawLines : List Text} {line : Text}
    (h : line ∈ cleanLines cleaned rawLines) :
    line ∈ cleaned ∨ line = [] ∨ ∃ rawLine ∈ rawLines, line = cleanLine (rstrip rawLine) := by
  induction rawLines generalizing cleaned with
  | nil => exact .inl h
  | cons rawLine rawLines ih =>
    unfold cleanLines at h
    simp only at h
    split at h
    · obtain hmem | hempty | ⟨raw, hraw, heq⟩ := ih h
      · split at hmem
        · obtain hmem | hmem := List.mem_append.mp hmem
          · exact .inl hmem
          · exact .inr (.inl (List.mem_singleton.mp hmem))
        · exact .inl hmem
      · exact .inr (.inl hempty)
      · exact .inr (.inr ⟨raw, List.mem_cons_of_mem _ hraw, heq⟩)
    · obtain hmem | hempty | ⟨raw, hraw, heq⟩ := ih h
      · obtain hmem | hmem := List.mem_append.mp hmem
        · exact .inl hmem
        · exact .inr (.inr ⟨rawLine, List.mem_cons_self, List.mem_singleton.mp hmem⟩)
      · exact .inr (.inl hempty)
      · exact .inr (.inr ⟨raw, List.mem_cons_of_mem _ hraw, heq⟩)

/-- The cleaned text is read back as it was written. -/
theorem return_not_mem_normalizeText (text : Text) : '\r' ∉ Markdown.normalizeText text := by
  intro hmem
  unfold Markdown.normalizeText at hmem
  simp only at hmem
  split at hmem
  · cases hmem
  · obtain hmem | hmem := List.mem_append.mp hmem
    · obtain hmem | ⟨line, hline, hc⟩ := mem_intercalate hmem
      · exact absurd hmem (by decide)
      · have hsub := (List.dropWhile_sublist _).subset
          ((List.rdropWhile_prefix _ _).sublist.subset hline)
        obtain hnil | rfl | ⟨rawLine, hraw, rfl⟩ := mem_cleanLines hsub
        · cases hnil
        · cases hc
        · obtain hc | hc | hc := mem_cleanLine hc
          · exact absurd hc (by decide)
          · exact absurd hc (by decide)
          · have hin : '\r' ∈ rawLine := List.mem_reverse.mp
              ((List.dropWhile_sublist _).subset (List.mem_reverse.mp hc))
            have htext := mem_intercalate_of_mem ['\n'] hraw hin
            rw [List.intercalate_splitOn] at htext
            obtain ⟨c, -, heq⟩ := List.mem_map.mp htext
            split at heq
            · exact absurd heq (by decide)
            · next hne => exact hne heq
    · exact absurd hmem (by decide)

/-! ## The two together -/

/-- Without a section there is no line with ink, and the chunker finds no section either. -/
theorem parseSections_eq_nil {text : Text} (h : extractSections text = []) :
    parseSections (splitlines text) = [] := by
  have hblank : ∀ line ∈ splitlines text, strip line = [] := by
    intro line hline
    by_contra hink
    obtain ⟨i, hget⟩ := List.mem_iff_getElem?.mp hline
    have hcovers := covers_scanSections processorHeading (splitlines text)
    obtain ⟨s, hs, -⟩ := hcovers.covers i line hget hink
    rw [show scanSections processorHeading 1 [] none (splitlines text) = [] from h] at hs
    cases hs
  have hscan : ∀ (lines : List Text) (n : Nat), (∀ line ∈ lines, line ∈ splitlines text) →
      scanSections chunkerHeading n [] none lines = [] := by
    intro lines n hlines
    induction lines generalizing n with
    | nil => rfl
    | cons line lines ih =>
      rw [List.forall_mem_cons] at hlines
      have hempty := hblank line hlines.1
      have hnone : chunkerHeading line = none := by
        rw [Option.eq_none_iff_forall_ne_some]
        intro heading hheading
        rw [chunkerHeading_eq_readHeading] at hheading
        exact strip_ne_nil_of_readHeading (fun _ h => h) (not_mem_newline hlines.1) hheading hempty
      simp only [scanSections, hnone, hempty, ne_eq, not_true_eq_false, and_false, if_false]
      exact ih (n + 1) hlines.2
  exact hscan _ 1 fun _ hline => hline

/-- **Processing and chunking lose nothing.** -/
theorem markdown_loses_nothing (text : Text) :
    let cleaned := Markdown.normalizeText text
    let sections := extractSections cleaned
    Covers (splitlines cleaned) sections ∧
      Carries (splitlines cleaned) sections (buildMarkdown cleaned (some sections)) := by
  refine ⟨covers_scanSections _ _, ?_⟩
  unfold buildMarkdown
  rw [universalNewlines_of_not_mem (return_not_mem_normalizeText text)]
  simp only [Option.getD_some]
  by_cases hempty : extractSections (Markdown.normalizeText text) = []
  · rw [if_pos hempty, parseSections_eq_nil hempty, hempty]
    exact carries_buildBlocks _ []
  · rw [if_neg hempty]
    exact carries_buildBlocks _ _

end DocFlow.Chunker
