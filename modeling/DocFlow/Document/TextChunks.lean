import DocFlow.Document.MarkdownChunks

/-!
# The chunks of a plain text

`TextChunker.build` cuts a text at its blank lines: each paragraph becomes segments, the parent
blocks, and each segment becomes chunks, its children.

`splitting_loses_nothing`: the splitters and the chunker built on them answer with pieces (`Pieces`):
none is blank or too long, and together they are the ink of the text.
-/

namespace DocFlow.Chunker

open PyString (isSpace)
open Text

/-! ## Paragraphs -/

/-- How much of the whitespace behind a newline belongs to blank lines: all up to its last newline. -/
def breakLength (s : Text) : Nat := ((s.takeWhile isSpace).reverse.dropWhile (· ≠ '\n')).length

/-- `re.split(r"\n\s*\n", text)`, behind `skip` characters that belong to a break. -/
def splitBlankLines : Nat → Text → List Text
  | _, [] => [[]]
  | skip + 1, _ :: s => splitBlankLines skip s
  | 0, c :: s =>
    if c = '\n' ∧ 0 < breakLength s then [] :: splitBlankLines (breakLength s) s
    else consHead c (splitBlankLines 0 s)

example : splitBlankLines 0 "a\n \n  b\nc\n\n\n\td ".toList =
    ["a".toList, "  b\nc".toList, "\td ".toList] := by
  decide

/-- `split_paragraphs`. -/
def splitParagraphs (text : Text) : List Text :=
  (splitBlankLines 0 (normalizeText text)).flatMap kept

/-- What is skipped is blank. -/
theorem ink_drop_breakLength (s : Text) : ink (s.drop (breakLength s)) = ink s := by
  have hblank : ∀ c ∈ s.take (breakLength s), isSpace c = true := by
    intro c hc
    have hle : breakLength s ≤ (s.takeWhile isSpace).length := by
      have h := (List.dropWhile_sublist (· ≠ '\n') (l := (s.takeWhile isSpace).reverse)).length_le
      rw [List.length_reverse] at h
      exact h
    have hfront : s.take (breakLength s) <+: s.takeWhile isSpace :=
      List.prefix_of_prefix_length_le (List.take_prefix _ s) (List.takeWhile_prefix isSpace)
        ((List.length_take_le _ _).trans hle)
    exact List.mem_takeWhile_imp (hfront.subset hc)
  conv_rhs => rw [← List.take_append_drop (breakLength s) s, ink_append]
  rw [ink_eq_nil.mpr hblank, List.nil_append]

theorem inks_splitBlankLines (skip : Nat) (s : Text) :
    inks (splitBlankLines skip s) = ink (s.drop skip) := by
  induction s generalizing skip with
  | nil => cases skip <;> rfl
  | cons c s ih =>
    cases skip with
    | succ skip =>
      rw [splitBlankLines, ih, List.drop_succ_cons]
    | zero =>
      rw [splitBlankLines, List.drop_zero]
      by_cases hbreak : c = '\n' ∧ 0 < breakLength s
      · rw [if_pos hbreak, inks_cons, ih, ink_drop_breakLength, hbreak.1,
          ink_cons_of_space (by decide)]
        rfl
      · rw [if_neg hbreak, inks_consHead, ih, List.drop_zero]
        exact (ink_cons c s).symm

theorem inks_splitParagraphs (text : Text) : inks (splitParagraphs text) = ink text := by
  rw [splitParagraphs, inks_flatMap_kept, inks_splitBlankLines, List.drop_zero, ink_normalizeText]

/-! ## No part is blank -/

/-- Each of the parts has ink. -/
def Inked (parts : List Text) : Prop := ∀ part ∈ parts, ink part ≠ []

section

variable {maxLen : Nat} {cutPart : Text → List Text}

theorem inked_nil : Inked [] := by
  intro part hpart
  cases hpart

theorem Inked.append {parts parts' : List Text} (h : Inked parts) (h' : Inked parts') :
    Inked (parts ++ parts') := by
  intro part hpart
  exact (List.mem_append.mp hpart).elim (h part) (h' part)

theorem inked_kept (text : Text) : Inked (kept text) := by
  unfold kept
  split
  · exact inked_nil
  · next h =>
    intro part hpart
    rw [List.mem_singleton.mp hpart, ink_strip]
    exact fun hink => h (strip_eq_nil.mpr hink)

theorem inked_flatMap_kept (parts : List Text) : Inked (parts.flatMap kept) := by
  intro part hpart
  obtain ⟨text, -, hmem⟩ := List.mem_flatMap.mp hpart
  exact inked_kept text part hmem

theorem inked_hardSplit (text : Text) : Inked (hardSplit maxLen text) := by
  intro part hpart
  obtain ⟨i, -, hmem⟩ := List.mem_flatMap.mp hpart
  exact inked_kept _ part hmem

theorem inked_packParts (hcut : ∀ part, Inked (cutPart part)) (current : Text) (parts : List Text) :
    Inked (packParts maxLen cutPart current parts) := by
  induction parts generalizing current with
  | nil => exact inked_kept current
  | cons part parts ih =>
    unfold packParts
    by_cases hlong : maxLen < part.length
    · rw [if_pos hlong]
      exact ((inked_kept current).append (hcut part)).append (ih _)
    · rw [if_neg hlong]
      by_cases hfits : (if current = [] then part else current ++ ' ' :: part).length ≤ maxLen
      · simp only [if_pos hfits]
        exact ih _
      · simp only [if_neg hfits]
        exact (inked_kept current).append (ih part)

theorem inked_splitLongSentence (text : Text) : Inked (splitLongSentence maxLen text) := by
  unfold splitLongSentence
  simp only
  split
  · exact inked_hardSplit text
  · exact inked_packParts inked_hardSplit [] _

theorem inked_splitTextToChildChunks (text : Text) : Inked (splitTextToChildChunks maxLen text) := by
  unfold splitTextToChildChunks
  simp only
  split
  · exact inked_nil
  · exact inked_packParts inked_splitLongSentence [] _

theorem inked_flushParagraphs {parts : List Text} (h : Inked parts) :
    Inked (flushParagraphs parts) := by
  unfold flushParagraphs
  split
  · exact inked_nil
  · next hne =>
    intro part hpart
    rw [List.mem_singleton.mp hpart, joinParagraphs, ink_intercalate (by decide)]
    obtain ⟨first, rest, rfl⟩ := List.exists_cons_of_ne_nil hne
    rw [inks_cons]
    exact fun hnil => h first List.mem_cons_self (List.append_eq_nil_iff.mp hnil).1

theorem inked_packParagraphs {parts : List Text} (hparts : Inked parts) (length : Nat)
    {paragraphs : List Text} (h : Inked paragraphs) :
    Inked (packParagraphs maxLen parts length paragraphs) := by
  induction paragraphs generalizing parts length with
  | nil => exact inked_flushParagraphs hparts
  | cons paragraph paragraphs ih =>
    have hparagraph : Inked [paragraph] := by
      intro part hpart
      rw [List.mem_singleton.mp hpart]
      exact h paragraph List.mem_cons_self
    have hrest : Inked paragraphs := fun part hpart => h part (List.mem_cons_of_mem _ hpart)
    unfold packParagraphs
    simp only
    by_cases hfull : parts ≠ [] ∧
        maxLen < length + ((if parts = [] then 0 else 2) + paragraph.length)
    · simp only [if_pos hfull]
      apply (inked_flushParagraphs hparts).append
      by_cases hfits : paragraph.length ≤ maxLen
      · rw [if_pos hfits]
        exact ih (inked_nil.append hparagraph) _ hrest
      · rw [if_neg hfits]
        exact ((inked_flushParagraphs inked_nil).append (inked_splitTextToChildChunks _)).append
          (ih inked_nil _ hrest)
    · simp only [if_neg hfull]
      apply inked_nil.append
      by_cases hfits : paragraph.length ≤ maxLen
      · rw [if_pos hfits]
        exact ih (hparts.append hparagraph) _ hrest
      · rw [if_neg hfits]
        exact ((inked_flushParagraphs hparts).append (inked_splitTextToChildChunks _)).append
          (ih inked_nil _ hrest)

theorem inked_splitTextToParentSegments (text : Text) :
    Inked (splitTextToParentSegments maxLen text) := by
  unfold splitTextToParentSegments
  simp only
  split
  · exact inked_nil
  · next hne =>
    split
    · intro part hpart
      rw [List.mem_singleton.mp hpart, ink_strip]
      exact fun hink => hne (strip_eq_nil.mpr hink)
    · exact inked_packParagraphs inked_nil 0 (inked_flatMap_kept _)

end

/-! ## Pieces -/

/-- The pieces of a text, each with ink and within the limit. -/
structure Pieces (limit : Nat) (text : Text) (pieces : List Text) : Prop where
  inked : Inked pieces
  within : Within limit pieces
  inks_eq : inks pieces = ink text
  ne_nil : ink text ≠ [] → pieces ≠ []

theorem pieces_of {limit : Nat} {text : Text} {pieces : List Text} (hinked : Inked pieces)
    (hwithin : Within limit pieces) (hinks : inks pieces = ink text) : Pieces limit text pieces := by
  refine ⟨hinked, hwithin, hinks, fun hne hnil => hne ?_⟩
  rw [← hinks, hnil]
  rfl

theorem pieces_childChunks {maxLen : Nat} (hpos : 1 ≤ maxLen) (text : Text) :
    Pieces maxLen text (splitTextToChildChunks maxLen text) :=
  pieces_of (inked_splitTextToChildChunks text) (within_splitTextToChildChunks text)
    (inks_splitTextToChildChunks hpos text)

theorem pieces_parentSegments {maxChars : Nat} (hpos : 1 ≤ maxChars) (text : Text) :
    Pieces maxChars text (splitTextToParentSegments maxChars text) :=
  pieces_of (inked_splitTextToParentSegments text) (within_splitTextToParentSegments text)
    (inks_splitTextToParentSegments hpos text)

/-! ## The chunker -/

/-- The blocks of a paragraph, from the index `blockIndex` on; a block of a plain text has no path,
so the embedding text of a child is its content. -/
def paragraphBlocks (group blockIndex : Nat) (paragraph : Text) :
    List (ParentBlockData × List ChildChunkData) :=
  (splitTextToParentSegments parentBlockMaxChars paragraph).zipIdx.map fun segment =>
    ({ blockType := "paragraph"
       title := none
       sectionPath := none
       content := segment.1
       blockIndex := blockIndex + segment.2
       semanticGroupIndex := group
       segmentIndex := segment.2 },
      segmentChildren none segment.1)

/-- The loop over the paragraphs. -/
def buildParagraphs (group blockIndex : Nat) :
    List Text → List (ParentBlockData × List ChildChunkData)
  | [] => []
  | paragraph :: paragraphs =>
    let blocks := paragraphBlocks group blockIndex paragraph
    blocks ++ buildParagraphs (group + 1) (blockIndex + blocks.length) paragraphs

/-- `TextChunker.build`, on the text of the file. -/
def buildText (file : Text) : ChunkBuildResult :=
  .ofBlocks (buildParagraphs 0 0 (splitParagraphs (universalNewlines file)))

theorem contents_paragraphBlocks (group blockIndex : Nat) (paragraph : Text) :
    (paragraphBlocks group blockIndex paragraph).map (fun b => b.1.content) =
      splitTextToParentSegments parentBlockMaxChars paragraph := by
  rw [paragraphBlocks, List.map_map]
  exact List.zipIdx_map_fst 0 _

theorem contents_buildParagraphs (group blockIndex : Nat) (paragraphs : List Text) :
    (buildParagraphs group blockIndex paragraphs).map (fun b => b.1.content) =
      paragraphs.flatMap (splitTextToParentSegments parentBlockMaxChars) := by
  induction paragraphs generalizing group blockIndex with
  | nil => rfl
  | cons paragraph paragraphs ih =>
    rw [buildParagraphs, List.map_append, contents_paragraphBlocks, ih, List.flatMap_cons]

theorem indices_buildParagraphs (group blockIndex : Nat) (paragraphs : List Text) :
    (buildParagraphs group blockIndex paragraphs).map (fun b => b.1.blockIndex) =
      List.range' blockIndex (buildParagraphs group blockIndex paragraphs).length := by
  induction paragraphs generalizing group blockIndex with
  | nil => rfl
  | cons paragraph paragraphs ih =>
    have hblocks : (paragraphBlocks group blockIndex paragraph).map (fun b => b.1.blockIndex) =
        List.range' blockIndex (paragraphBlocks group blockIndex paragraph).length := by
      have hcomp : ∀ segments : List (Text × Nat),
          segments.map (fun segment => blockIndex + segment.2) =
            (segments.map Prod.snd).map (blockIndex + ·) := fun segments => by
        rw [List.map_map]
        rfl
      rw [paragraphBlocks, List.map_map, List.length_map, List.length_zipIdx]
      refine (hcomp _).trans ?_
      rw [List.zipIdx_map_snd, List.map_add_range', Nat.add_zero]
    rw [buildParagraphs, List.map_append, hblocks, ih, List.length_append, List.range'_append_1]

theorem children_of_mem_buildParagraphs {group blockIndex : Nat} {paragraphs : List Text}
    {b : ParentBlockData × List ChildChunkData}
    (h : b ∈ buildParagraphs group blockIndex paragraphs) : b.2 = segmentChildren none b.1.content := by
  induction paragraphs generalizing group blockIndex with
  | nil => cases h
  | cons paragraph paragraphs ih =>
    obtain h | h := List.mem_append.mp h
    · obtain ⟨segment, -, rfl⟩ := List.mem_map.mp h
      rfl
    · exact ih h

/-- A text that is cut, and its parts cut again. -/
theorem pieces_flatMap {limit : Nat} {text : Text} {parts : List Text} {cut : Text → List Text}
    (hcut : ∀ part, Pieces limit part (cut part)) (hinks : inks parts = ink text) :
    Pieces limit text (parts.flatMap cut) := by
  refine pieces_of ?_ ?_ ?_
  · intro piece hpiece
    obtain ⟨part, -, hmem⟩ := List.mem_flatMap.mp hpiece
    exact (hcut part).inked piece hmem
  · intro piece hpiece
    obtain ⟨part, -, hmem⟩ := List.mem_flatMap.mp hpiece
    exact (hcut part).within piece hmem
  · rw [← hinks]
    clear hinks
    induction parts with
    | nil => rfl
    | cons part parts ih => rw [List.flatMap_cons, inks_append, (hcut part).inks_eq, ih, inks_cons]

theorem ink_universalNewlines (text : Text) : ink (universalNewlines text) = ink text := by
  rw [universalNewlines, ink_replaceChar (by decide) (by decide),
    ink_replacePair (by decide) (by decide) (by decide)]

theorem pieces_parents (file : Text) :
    Pieces parentBlockMaxChars file ((buildText file).parents.map ParentBlockData.content) := by
  have hcontents : (buildText file).parents.map ParentBlockData.content =
      (splitParagraphs (universalNewlines file)).flatMap
        (splitTextToParentSegments parentBlockMaxChars) := by
    rw [← contents_buildParagraphs 0 0, buildText, ChunkBuildResult.ofBlocks, List.map_map]
    rfl
  rw [hcontents]
  apply pieces_flatMap
  · exact pieces_parentSegments (by decide)
  · rw [inks_splitParagraphs, ink_universalNewlines]

theorem pieces_children {file : Text} {parent : ParentBlockData}
    (h : parent ∈ (buildText file).parents) :
    Pieces childChunkMaxChars parent.content
      (((buildText file).children parent).map ChildChunkData.content) := by
  obtain ⟨b, hb, rfl⟩ := List.mem_map.mp h
  have hnodup : ((buildParagraphs 0 0 (splitParagraphs (universalNewlines file))).map
      fun b => b.1.blockIndex).Nodup := by
    rw [indices_buildParagraphs]
    exact List.nodup_range'
  rw [buildText, ChunkBuildResult.children_ofBlocks hnodup hb, children_of_mem_buildParagraphs hb,
    contents_segmentChildren]
  exact pieces_childChunks (by decide) _

/-- **Splitting loses nothing**, with any limit, and in the chunker. -/
theorem splitting_loses_nothing (text : Text) :
    (∀ limit, 1 ≤ limit → Pieces limit text (splitTextToChildChunks limit text) ∧
      Pieces limit text (splitTextToParentSegments limit text)) ∧
    Pieces parentBlockMaxChars text ((buildText text).parents.map ParentBlockData.content) ∧
    ∀ parent ∈ (buildText text).parents, Pieces childChunkMaxChars parent.content
      (((buildText text).children parent).map ChildChunkData.content) :=
  ⟨fun _ hpos => ⟨pieces_childChunks hpos text, pieces_parentSegments hpos text⟩,
    pieces_parents text, fun _ h => pieces_children h⟩

theorem splitting_loses_nothing_one :
    Pieces 1 "a b".toList (splitTextToChildChunks 1 "a b".toList) :=
  ((splitting_loses_nothing "a b".toList).1 1 (by decide)).1

end DocFlow.Chunker
