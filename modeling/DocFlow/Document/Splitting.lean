import DocFlow.Lib.Listing
import DocFlow.Lib.Text
import Mathlib.Algebra.Order.Group.Nat

/-!
# Splitting a text to size

The shared splitters of the chunkers.  A text becomes segments by its paragraphs, a segment becomes
chunks by its sentences, a long sentence is cut at spaces and at last anywhere.  Sentences and words
are packed by the same loop (`packParts`).

Every step keeps the ink of the text, part by part in order (`inks_...`), and the bound on the
lengths (`length_le_...`).
-/

namespace DocFlow.Chunker

open PyString (isSpace)
open Text

def parentBlockMaxChars : Nat := 4000
def childChunkMaxChars : Nat := 600

/-! ## What a chunker builds -/

structure ParentBlockData where
  blockType : String
  title : Option Text
  sectionPath : Option (List Text)
  content : Text
  blockIndex : Nat
  semanticGroupIndex : Nat
  segmentIndex : Nat
deriving DecidableEq, Repr

structure ChildChunkData where
  content : Text
  embeddingText : Text
  chunkIndex : Nat
  sectionPath : Option (List Text)
  sourceRowIndex : Option Nat
  chunkType : String
deriving DecidableEq, Repr

structure ChunkBuildResult where
  parents : List ParentBlockData
  childrenByParentIndex : List (Nat × List ChildChunkData)
deriving DecidableEq, Repr

/-- The result of blocks, each with its children. -/
def ChunkBuildResult.ofBlocks (blocks : List (ParentBlockData × List ChildChunkData)) :
    ChunkBuildResult where
  parents := blocks.map Prod.fst
  childrenByParentIndex := blocks.map fun block => (block.1.blockIndex, block.2)

/-- `children_by_parent_index.get(parent.block_index, [])`. -/
def ChunkBuildResult.children (result : ChunkBuildResult) (parent : ParentBlockData) :
    List ChildChunkData :=
  (result.childrenByParentIndex.lookup parent.blockIndex).getD []

/-- The children of a block are found under it. -/
theorem ChunkBuildResult.children_ofBlocks {blocks : List (ParentBlockData × List ChildChunkData)}
    (hnodup : (blocks.map fun block => block.1.blockIndex).Nodup)
    {block : ParentBlockData × List ChildChunkData} (h : block ∈ blocks) :
    (ofBlocks blocks).children block.1 = block.2 := by
  rw [children, ofBlocks, lookup_of_mem (r := block.2)]
  · rfl
  · simpa [List.map_map, Function.comp_def] using hnodup
  · exact List.mem_map_of_mem (f := fun block : ParentBlockData × List ChildChunkData =>
      (block.1.blockIndex, block.2)) h

/-! ## The splitters -/

/-- `normalize_text`. -/
def normalizeText (text : Text) : Text :=
  strip (replaceChar '\r' '\n' (replacePair '\r' '\n' '\n' text))

/-- `_hard_split`. -/
def hardSplit (maxLen : Nat) (text : Text) : List Text :=
  (List.range ((text.length + (maxLen - 1)) / maxLen)).flatMap fun i =>
    kept ((text.drop (i * maxLen)).take maxLen)

/-- The loop that puts parts together as long as they fit; one that is too long is cut. -/
def packParts (maxLen : Nat) (cut : Text → List Text) (current : Text) : List Text → List Text
  | [] => kept current
  | part :: parts =>
    if maxLen < part.length then
      kept current ++ cut part ++
        packParts maxLen cut (if strip current = [] then current else []) parts
    else
      let candidate := if current = [] then part else current ++ ' ' :: part
      if candidate.length ≤ maxLen then packParts maxLen cut candidate parts
      else kept current ++ packParts maxLen cut part parts

/-- `_split_long_sentence`. -/
def splitLongSentence (maxLen : Nat) (text : Text) : List Text :=
  let parts := text.splitOn ' '
  if parts.length ≤ 1 then hardSplit maxLen text
  else packParts maxLen (hardSplit maxLen) [] parts

def sentenceEndings : Text := "。！？；.!?;".toList

/-- The sentences, with what has been read of the current one. -/
def splitSentences (buffer : Text) : Text → List Text
  | [] => kept buffer
  | c :: text =>
    if c ∈ sentenceEndings then kept (buffer ++ [c]) ++ splitSentences [] text
    else splitSentences (buffer ++ [c]) text

def splitTextToChildChunks (maxLen : Nat) (text : Text) : List Text :=
  let text := normalizeText text
  if text = [] then []
  else packParts maxLen (splitLongSentence maxLen) [] (splitSentences [] text)

/-- `"\n\n".join(parts)`. -/
def joinParagraphs (parts : List Text) : Text := ['\n', '\n'].intercalate parts

/-- The paragraphs that are waiting, as a segment. -/
def flushParagraphs (parts : List Text) : List Text :=
  if parts = [] then [] else [joinParagraphs parts]

/-- The loop over the paragraphs; `length` is that of the segment that is waiting. -/
def packParagraphs (maxChars : Nat) (parts : List Text) (length : Nat) : List Text → List Text
  | [] => flushParagraphs parts
  | paragraph :: paragraphs =>
    let separatorLength := if parts = [] then 0 else 2
    let full := parts ≠ [] ∧ maxChars < length + (separatorLength + paragraph.length)
    let waiting := if full then [] else parts
    let length := if full then 0 else length
    let separatorLength := if waiting = [] then 0 else 2
    (if full then flushParagraphs parts else []) ++
      if paragraph.length ≤ maxChars then
        packParagraphs maxChars (waiting ++ [paragraph])
          (length + (separatorLength + paragraph.length)) paragraphs
      else
        flushParagraphs waiting ++ splitTextToChildChunks maxChars paragraph ++
          packParagraphs maxChars [] 0 paragraphs

def splitTextToParentSegments (maxChars : Nat) (text : Text) : List Text :=
  let text := strip text
  if text = [] then []
  else if text.length ≤ maxChars then [text]
  else packParagraphs maxChars [] 0 ((splitPair '\n' '\n' text).flatMap kept)

def buildEmbeddingText (sectionPath : Option (List Text)) (content : Text) : Text :=
  match sectionPath with
  | none => content
  | some [] => content
  | some path => "标题路径：".toList ++ ['>'].intercalate path ++ "\n正文：".toList ++ content

example : splitTextToChildChunks 6 "一二。三四五六七八九。十".toList =
    ["一二。".toList, "三四五六七八".toList, "九。".toList, "十".toList] := by
  decide +kernel

/-! ## No ink is lost -/

section Ink

variable {maxLen : Nat} {cutPart : Text → List Text}

theorem ink_normalizeText (text : Text) : ink (normalizeText text) = ink text := by
  rw [normalizeText, ink_strip, ink_replaceChar (by decide) (by decide),
    ink_replacePair (by decide) (by decide) (by decide)]

theorem inks_flatMap_kept (parts : List Text) : inks (parts.flatMap kept) = inks parts := by
  induction parts with
  | nil => rfl
  | cons part parts ih => rw [List.flatMap_cons, inks_append, inks_kept, ih, inks_cons]

/-- The first `n` slices are the first `n * maxLen` characters. -/
theorem inks_slices (maxLen n : Nat) (text : Text) :
    inks ((List.range n).flatMap fun i => kept ((text.drop (i * maxLen)).take maxLen)) =
      ink (text.take (n * maxLen)) := by
  induction n with
  | zero => simp
  | succ n ih =>
    rw [List.range_succ, List.flatMap_append, inks_append, ih, List.flatMap_singleton, inks_kept,
      ← ink_append, Nat.succ_mul, List.take_add]

theorem inks_hardSplit (hpos : 0 < maxLen) (text : Text) : inks (hardSplit maxLen text) = ink text := by
  rw [hardSplit, inks_slices, List.take_of_length_le]
  have hdiv := Nat.div_add_mod (text.length + (maxLen - 1)) maxLen
  have hmod := Nat.mod_lt (text.length + (maxLen - 1)) hpos
  rw [Nat.mul_comm] at hdiv
  omega

/-- **Packing loses no ink** when cutting does not. -/
theorem inks_packParts (hcut : ∀ part, inks (cutPart part) = ink part) (current : Text)
    (parts : List Text) :
    inks (packParts maxLen cutPart current parts) = ink current ++ inks parts := by
  induction parts generalizing current with
  | nil => simp [packParts]
  | cons part parts ih =>
    unfold packParts
    by_cases hlong : maxLen < part.length
    · rw [if_pos hlong, inks_append, inks_append, inks_kept, hcut, ih, inks_cons]
      by_cases hblank : strip current = []
      · simp [hblank, strip_eq_nil.mp hblank]
      · simp [hblank]
    · rw [if_neg hlong]
      have hjoin : ink (if current = [] then part else current ++ ' ' :: part) =
          ink current ++ ink part := by
        by_cases hempty : current = []
        · simp [hempty]
        · rw [if_neg hempty, ink_append, ink_cons_of_space (by decide)]
      by_cases hfits : (if current = [] then part else current ++ ' ' :: part).length ≤ maxLen
      · simp only [if_pos hfits]
        rw [ih, hjoin, inks_cons, List.append_assoc]
      · simp only [if_neg hfits]
        rw [inks_append, inks_kept, ih, inks_cons]

theorem inks_splitLongSentence (hpos : 0 < maxLen) (text : Text) :
    inks (splitLongSentence maxLen text) = ink text := by
  unfold splitLongSentence
  simp only
  split
  · exact inks_hardSplit hpos text
  · rw [inks_packParts (inks_hardSplit hpos), inks_splitOn (by decide)]
    rfl

theorem inks_splitSentences (buffer text : Text) :
    inks (splitSentences buffer text) = ink buffer ++ ink text := by
  induction text generalizing buffer with
  | nil => simp [splitSentences]
  | cons c text ih =>
    unfold splitSentences
    split
    · rw [inks_append, inks_kept, ih, ink_append, ink_cons c text]
      simp
    · rw [ih, ink_append, ink_cons c text, List.append_assoc]

/-- **The chunks of a text carry its ink.** -/
theorem inks_splitTextToChildChunks (hpos : 0 < maxLen) (text : Text) :
    inks (splitTextToChildChunks maxLen text) = ink text := by
  unfold splitTextToChildChunks
  simp only
  split
  · next h => rw [← ink_normalizeText, h]; rfl
  · rw [inks_packParts (inks_splitLongSentence hpos), inks_splitSentences, ink_normalizeText]
    rfl

theorem inks_flushParagraphs (parts : List Text) : inks (flushParagraphs parts) = inks parts := by
  unfold flushParagraphs
  split
  · next h => rw [h]
  · rw [inks_cons, joinParagraphs, ink_intercalate (by decide), inks_nil, List.append_nil]

theorem inks_packParagraphs (hpos : 0 < maxLen) (parts : List Text) (length : Nat)
    (paragraphs : List Text) :
    inks (packParagraphs maxLen parts length paragraphs) = inks parts ++ inks paragraphs := by
  induction paragraphs generalizing parts length with
  | nil => simp [packParagraphs, inks_flushParagraphs]
  | cons paragraph paragraphs ih =>
    unfold packParagraphs
    simp only
    by_cases hfull : parts ≠ [] ∧
        maxLen < length + ((if parts = [] then 0 else 2) + paragraph.length)
    · simp only [if_pos hfull]
      by_cases hfits : paragraph.length ≤ maxLen
      · rw [if_pos hfits, inks_append, inks_flushParagraphs, ih]
        simp
      · rw [if_neg hfits, inks_append, inks_append, inks_append, inks_flushParagraphs,
          inks_flushParagraphs, inks_splitTextToChildChunks hpos, ih]
        simp
    · simp only [if_neg hfull]
      by_cases hfits : paragraph.length ≤ maxLen
      · rw [if_pos hfits, inks_append, ih]
        simp
      · rw [if_neg hfits, inks_append, inks_append, inks_append, inks_flushParagraphs,
          inks_splitTextToChildChunks hpos, ih]
        simp

/-- **The segments of a text carry its ink.** -/
theorem inks_splitTextToParentSegments (hpos : 0 < maxLen) (text : Text) :
    inks (splitTextToParentSegments maxLen text) = ink text := by
  unfold splitTextToParentSegments
  simp only
  split
  · next h => rw [← ink_strip, h]; rfl
  · split
    · simp
    · rw [inks_packParagraphs hpos, inks_flatMap_kept, inks_splitPair (by decide) (by decide),
        ink_strip]
      rfl

end Ink

/-! ## No part is too long -/

section Length

variable {maxLen : Nat} {cutPart : Text → List Text}

/-- None of the parts is longer than `maxLen`. -/
def Within (maxLen : Nat) (parts : List Text) : Prop := ∀ part ∈ parts, part.length ≤ maxLen

theorem Within.append {parts parts' : List Text} (h : Within maxLen parts)
    (h' : Within maxLen parts') : Within maxLen (parts ++ parts') := by
  intro part hpart
  exact (List.mem_append.mp hpart).elim (h part) (h' part)

theorem within_nil : Within maxLen [] := by
  intro part hpart
  cases hpart

theorem within_kept {text : Text} (h : text.length ≤ maxLen) : Within maxLen (kept text) := by
  intro part hpart
  exact (length_of_mem_kept hpart).trans h

theorem within_hardSplit (text : Text) : Within maxLen (hardSplit maxLen text) := by
  intro part hpart
  obtain ⟨i, -, hpart⟩ := List.mem_flatMap.mp hpart
  exact within_kept (List.length_take_le _ _) part hpart

/-- **Packing keeps the bound** when cutting does. -/
theorem within_packParts (hcut : ∀ part, Within maxLen (cutPart part)) {current : Text}
    (hcurrent : current.length ≤ maxLen) (parts : List Text) :
    Within maxLen (packParts maxLen cutPart current parts) := by
  induction parts generalizing current with
  | nil => exact within_kept hcurrent
  | cons part parts ih =>
    unfold packParts
    by_cases hlong : maxLen < part.length
    · rw [if_pos hlong]
      apply ((within_kept hcurrent).append (hcut part)).append
      apply ih
      by_cases hblank : strip current = []
      · rwa [if_pos hblank]
      · simp [hblank]
    · rw [if_neg hlong]
      by_cases hfits : (if current = [] then part else current ++ ' ' :: part).length ≤ maxLen
      · simp only [if_pos hfits]
        exact ih hfits
      · simp only [if_neg hfits]
        exact (within_kept hcurrent).append (ih (by omega))

theorem within_splitLongSentence (text : Text) : Within maxLen (splitLongSentence maxLen text) := by
  unfold splitLongSentence
  simp only
  split
  · exact within_hardSplit text
  · exact within_packParts within_hardSplit (Nat.zero_le _) _

theorem within_splitTextToChildChunks (text : Text) :
    Within maxLen (splitTextToChildChunks maxLen text) := by
  unfold splitTextToChildChunks
  simp only
  split
  · exact within_nil
  · exact within_packParts within_splitLongSentence (Nat.zero_le _) _

theorem joinParagraphs_concat {parts : List Text} (hne : parts ≠ []) (paragraph : Text) :
    joinParagraphs (parts ++ [paragraph]) = joinParagraphs parts ++ ('\n' :: '\n' :: paragraph) := by
  unfold joinParagraphs
  induction parts with
  | nil => exact absurd rfl hne
  | cons part parts ih =>
    cases parts with
    | nil => simp [List.intercalate]
    | cons next parts =>
      have hcons := ih (List.cons_ne_nil next parts)
      rw [List.cons_append, List.cons_append, List.intercalate_cons_cons, ← List.cons_append, hcons,
        List.intercalate_cons_cons]
      simp

theorem length_joinParagraphs_concat (parts : List Text) (paragraph : Text) :
    (joinParagraphs (parts ++ [paragraph])).length =
      (joinParagraphs parts).length + ((if parts = [] then 0 else 2) + paragraph.length) := by
  by_cases hne : parts = []
  · subst hne
    simp [joinParagraphs, List.intercalate]
  · rw [joinParagraphs_concat hne, if_neg hne, List.length_append, List.length_cons,
      List.length_cons]
    omega

theorem within_flushParagraphs {parts : List Text} (h : (joinParagraphs parts).length ≤ maxLen) :
    Within maxLen (flushParagraphs parts) := by
  unfold flushParagraphs
  split
  · exact within_nil
  · intro part hpart
    rwa [List.mem_singleton.mp hpart]

/-- The counted length is that of the segment, which is within the bound. -/
theorem within_packParagraphs {parts : List Text} {length : Nat}
    (hlength : length = (joinParagraphs parts).length) (hparts : length ≤ maxLen)
    (paragraphs : List Text) :
    Within maxLen (packParagraphs maxLen parts length paragraphs) := by
  induction paragraphs generalizing parts length with
  | nil => exact within_flushParagraphs (hlength ▸ hparts)
  | cons paragraph paragraphs ih =>
    have hflush : Within maxLen (flushParagraphs parts) :=
      within_flushParagraphs (hlength ▸ hparts)
    have hempty : (0 : Nat) = (joinParagraphs []).length := rfl
    unfold packParagraphs
    simp only
    by_cases hfull : parts ≠ [] ∧
        maxLen < length + ((if parts = [] then 0 else 2) + paragraph.length)
    · simp only [if_pos hfull]
      apply hflush.append
      by_cases hfits : paragraph.length ≤ maxLen
      · rw [if_pos hfits]
        apply ih
        · simp [joinParagraphs, List.intercalate]
        · simpa using hfits
      · rw [if_neg hfits]
        exact (within_nil.append (within_splitTextToChildChunks _)).append
          (ih hempty (Nat.zero_le _))
    · simp only [if_neg hfull]
      apply within_nil.append
      by_cases hfits : paragraph.length ≤ maxLen
      · rw [if_pos hfits]
        apply ih
        · rw [length_joinParagraphs_concat, hlength]
        · by_cases hne : parts = []
          · subst hne
            obtain rfl : length = 0 := hlength
            simpa using hfits
          · exact Nat.le_of_not_lt fun h => hfull ⟨hne, h⟩
      · rw [if_neg hfits]
        exact (hflush.append (within_splitTextToChildChunks _)).append
          (ih hempty (Nat.zero_le _))

theorem within_splitTextToParentSegments (text : Text) :
    Within maxLen (splitTextToParentSegments maxLen text) := by
  unfold splitTextToParentSegments
  simp only
  split
  · exact within_nil
  · split
    · next hfits =>
      intro part hpart
      rwa [List.mem_singleton.mp hpart]
    · exact within_packParagraphs rfl (Nat.zero_le _) _

end Length

end DocFlow.Chunker
