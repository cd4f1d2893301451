import DocFlow.Document.MarkdownChunks
import Mathlib.Data.List.Chain

/-!
# Cleaning a text twice

`MdProcessor._normalize_text` and `TxtProcessor._clean_text` run the same loop over the lines of a
text (`tidyLines`), the first one with a clean form for headings.

The lines of a cleaned text are `Tidy`, and a tidy text is left as it is (`tidyText_of_tidy`), so
cleaning twice is cleaning once (`cleaning_idempotent`).
-/

namespace DocFlow

namespace TxtProcessor

open Text

/-- The loop of `_clean_text`, with the lines cleaned so far and the number of blank ones. -/
def cleanLines (cleaned : List Text) (blankLineCount : Nat) : List Text → List Text × Nat
  | [] => (cleaned, blankLineCount)
  | rawLine :: rawLines =>
    let line := rstrip rawLine
    if strip line = [] then
      cleanLines (if cleaned ≠ [] ∧ cleaned.getLast? ≠ some [] then cleaned ++ [[]] else cleaned)
        (blankLineCount + 1) rawLines
    else cleanLines (cleaned ++ [line]) blankLineCount rawLines

structure Metadata where
  encoding : String
  paragraphCount : Nat
  blankLineCount : Nat
  cleaningStrategy : String
deriving DecidableEq, Repr

/-- `_clean_text`. -/
def cleanText (text : Text) : Text × Metadata :=
  let text := replaceChar '\r' '\n'
    (replacePair '\r' '\n' '\n' (text.filter fun c => c ≠ Char.ofNat 0))
  let (lines, blankLineCount) := cleanLines [] 0 (text.splitOn '\n')
  let cleaned := (lines.dropWhile fun line => line = []).rdropWhile fun line => line = []
  let joined := ['\n'].intercalate cleaned
  let cleanedText := if joined = [] then [] else joined ++ ['\n']
  (cleanedText,
    { encoding := "utf-8"
      paragraphCount :=
        ((splitPair '\n' '\n' (strip cleanedText)).filter fun part => strip part ≠ []).length
      blankLineCount := blankLineCount
      cleaningStrategy := "normalize_newlines_remove_nul_rstrip_lines_collapse_blank_lines" })

end TxtProcessor

namespace Cleaning

open PyString (isSpace)
open Text

/-! ## The loop of both -/

/-- The loop, for any clean form of a line. -/
def tidyLines (clean : Text → Text) (cleaned : List Text) : List Text → List Text
  | [] => cleaned
  | rawLine :: rawLines =>
    let line := rstrip rawLine
    if strip line = [] then
      tidyLines clean (if cleaned ≠ [] ∧ cleaned.getLast? ≠ some [] then cleaned ++ [[]] else cleaned)
        rawLines
    else tidyLines clean (cleaned ++ [clean line]) rawLines

/-- The line ends become newlines, and NUL goes. -/
def plain (text : Text) : Text :=
  replaceChar '\r' '\n' (replacePair '\r' '\n' '\n' (text.filter fun c => c ≠ Char.ofNat 0))

/-- Lines as the text of a file. -/
def joinLines (lines : List Text) : Text :=
  if ['\n'].intercalate lines = [] then [] else ['\n'].intercalate lines ++ ['\n']

def tidyText (clean : Text → Text) (text : Text) : Text :=
  joinLines (((tidyLines clean [] ((plain text).splitOn '\n')).dropWhile fun line =>
    line = []).rdropWhile fun line => line = [])

theorem cleanLines_eq_tidyLines (cleaned rawLines : List Text) :
    Markdown.cleanLines cleaned rawLines = tidyLines Markdown.cleanLine cleaned rawLines := by
  induction rawLines generalizing cleaned with
  | nil => rfl
  | cons rawLine rawLines ih =>
    rw [Markdown.cleanLines, tidyLines]
    simp only [ih]

theorem normalizeText_eq_tidyText (text : Text) :
    Markdown.normalizeText text = tidyText Markdown.cleanLine text := by
  unfold Markdown.normalizeText tidyText joinLines plain
  simp only [cleanLines_eq_tidyLines]

theorem cleanLines_eq_tidyLines_id (cleaned : List Text) (blankLineCount : Nat)
    (rawLines : List Text) :
    (TxtProcessor.cleanLines cleaned blankLineCount rawLines).1 = tidyLines id cleaned rawLines := by
  induction rawLines generalizing cleaned blankLineCount with
  | nil => rfl
  | cons rawLine rawLines ih =>
    rw [TxtProcessor.cleanLines, tidyLines]
    simp only [id]
    split
    · exact ih _ _
    · exact ih _ _

theorem cleanText_eq_tidyText (text : Text) :
    (TxtProcessor.cleanText text).1 = tidyText id text := by
  unfold TxtProcessor.cleanText tidyText joinLines plain
  simp only [cleanLines_eq_tidyLines_id]

/-! ## Lines that are clean -/

/-- None of the characters that are replaced or removed, and no newline. -/
def Bare (line : Text) : Prop := ∀ c ∈ line, c ≠ '\n' ∧ c ≠ '\r' ∧ c ≠ Char.ofNat 0

/-- What a clean form makes of a line that is stripped at its end and not blank. -/
structure Cleans (clean : Text → Text) : Prop where
  again : ∀ line, Bare line → rstrip line = line → ink line ≠ [] → clean (clean line) = clean line
  stripped : ∀ line, Bare line → rstrip line = line → ink line ≠ [] →
    rstrip (clean line) = clean line
  bare : ∀ line, Bare line → Bare (clean line)
  ink_eq : ∀ line, Bare line → rstrip line = line → ink line ≠ [] → ink (clean line) = ink line

/-- A line that is left as it is. -/
structure Clean (clean : Text → Text) (line : Text) : Prop where
  bare : Bare line
  stripped : rstrip line = line
  inked : ink line ≠ []
  fixed : clean line = line

theorem rstrip_rstrip (s : Text) : rstrip (rstrip s) = rstrip s :=
  List.rdropWhile_idempotent isSpace s

theorem bare_rstrip {line : Text} (h : Bare line) : Bare (rstrip line) := fun c hc =>
  h c ((List.rdropWhile_prefix isSpace line).subset hc)

theorem Cleans.clean {clean : Text → Text} (h : Cleans clean) {line : Text} (hbare : Bare line)
    (hne : strip (rstrip line) ≠ []) : Clean clean (clean (rstrip line)) := by
  have hinked : ink (rstrip line) ≠ [] := fun hnil => hne (strip_eq_nil.mpr hnil)
  have hrstrip := rstrip_rstrip line
  have hbare' := bare_rstrip hbare
  refine ⟨h.bare _ hbare', h.stripped _ hbare' hrstrip hinked, ?_, h.again _ hbare' hrstrip hinked⟩
  rw [h.ink_eq _ hbare' hrstrip hinked]
  exact hinked

theorem cleans_id : Cleans id where
  again _ _ _ _ := rfl
  stripped _ _ h _ := h
  bare _ h := h
  ink_eq _ _ _ _ := rfl

/-! ## Texts that are clean -/

/-- Lines that the loop leaves as they are: clean ones, and single blank ones, but not at the head. -/
structure Tidy (clean : Text → Text) (lines : List Text) : Prop where
  clean : ∀ line ∈ lines, line = [] ∨ Clean clean line
  apart : lines.IsChain fun a b => a ≠ [] ∨ b ≠ []
  head : lines.head? ≠ some []

section

variable {clean : Text → Text} {cleaned : List Text}

theorem tidy_nil : Tidy clean [] := ⟨by simp, .nil, by simp⟩

theorem Tidy.concat (h : Tidy clean cleaned) {line : Text} (hline : line = [] ∨ Clean clean line)
    (hblank : line = [] → cleaned ≠ [] ∧ cleaned.getLast? ≠ some []) :
    Tidy clean (cleaned ++ [line]) := by
  refine ⟨?_, ?_, ?_⟩
  · intro l hl
    obtain hl | hl := List.mem_append.mp hl
    · exact h.clean l hl
    · exact List.mem_singleton.mp hl ▸ hline
  · refine List.isChain_append.mpr ⟨h.apart, .singleton line, fun a ha b hb => ?_⟩
    obtain rfl : line = b := Option.some.inj hb
    by_cases hnil : line = []
    · refine .inl fun ha' => (hblank hnil).2 ?_
      rw [Option.mem_def] at ha
      rw [ha, ha']
    · exact .inr hnil
  · cases cleaned with
    | nil => exact fun heq => (hblank (Option.some.inj heq)).1 rfl
    | cons first cleaned => exact h.head

theorem tidy_tidyLines (hclean : Cleans clean) {rawLines : List Text}
    (hraw : ∀ line ∈ rawLines, Bare line) (h : Tidy clean cleaned) :
    Tidy clean (tidyLines clean cleaned rawLines) := by
  induction rawLines generalizing cleaned with
  | nil => exact h
  | cons rawLine rawLines ih =>
    rw [List.forall_mem_cons] at hraw
    rw [tidyLines]
    by_cases hblank : strip (rstrip rawLine) = []
    · rw [if_pos hblank]
      apply ih hraw.2
      split
      · next hadd => exact h.concat (.inl rfl) fun _ => hadd
      · exact h
    · rw [if_neg hblank]
      have hline := hclean.clean hraw.1 hblank
      refine ih hraw.2 (h.concat (.inr hline) fun hnil => ?_)
      exact absurd (by rw [hnil]; rfl) hline.inked

/-- Tidy lines are left as they are. -/
theorem tidyLines_of_tidy {rawLines : List Text} (h : Tidy clean (cleaned ++ rawLines)) :
    tidyLines clean cleaned rawLines = cleaned ++ rawLines := by
  induction rawLines generalizing cleaned with
  | nil => rw [tidyLines, List.append_nil]
  | cons line rawLines ih =>
    have hsplit : cleaned ++ line :: rawLines = cleaned ++ [line] ++ rawLines := by simp
    have hnext := ih (hsplit ▸ h)
    rw [tidyLines]
    obtain rfl | hline := h.clean line (by simp)
    · have hadd : cleaned ≠ [] ∧ cleaned.getLast? ≠ some [] := by
        constructor
        · rintro rfl
          exact h.head rfl
        · intro hlast
          have hpair := (List.isChain_append.mp h.apart).2.2 [] hlast [] rfl
          exact hpair.elim (fun hne => hne rfl) fun hne => hne rfl
      rw [if_pos (show strip (rstrip []) = [] from rfl), if_pos hadd, hnext, hsplit]
    · have hne : strip (rstrip line) ≠ [] := by
        rw [hline.stripped]
        exact fun hnil => hline.inked (strip_eq_nil.mp hnil)
      rw [if_neg hne, hline.stripped, hline.fixed, hnext, hsplit]

theorem dropWhile_of_tidy (h : Tidy clean cleaned) :
    cleaned.dropWhile (fun line => line = []) = cleaned := by
  cases cleaned with
  | nil => rfl
  | cons line cleaned =>
    refine List.dropWhile_cons_of_neg fun hnil => h.head ?_
    rw [of_decide_eq_true hnil]
    rfl

theorem Tidy.of_prefix {lines : List Text} (h : Tidy clean cleaned) (hfront : lines <+: cleaned) :
    Tidy clean lines := by
  obtain ⟨rest, rfl⟩ := hfront
  refine ⟨fun line hline => h.clean line (List.mem_append_left _ hline),
    (List.isChain_append.mp h.apart).1, fun hhead => h.head ?_⟩
  rw [List.head?_append, hhead]
  rfl

theorem intercalate_concat {sep : Text} {parts : List Text} (hne : parts ≠ []) (part : Text) :
    sep.intercalate (parts ++ [part]) = sep.intercalate parts ++ (sep ++ part) := by
  induction parts with
  | nil => exact absurd rfl hne
  | cons first parts ih =>
    cases parts with
    | nil => simp [List.intercalate]
    | cons second parts =>
      rw [List.cons_append, List.cons_append, List.intercalate_cons_cons, ← List.cons_append,
        ih (List.cons_ne_nil _ _), List.intercalate_cons_cons]
      simp

theorem plain_of_bare {text : Text} (h : ∀ c ∈ text, c ≠ '\r' ∧ c ≠ Char.ofNat 0) :
    plain text = text := by
  have hfilter : text.filter (fun c => c ≠ Char.ofNat 0) = text :=
    List.filter_eq_self.mpr fun c hc => decide_eq_true (h c hc).2
  rw [plain, hfilter]
  exact Chunker.universalNewlines_of_not_mem fun hmem => (h '\r' hmem).1 rfl

/-- **A tidy text is left as it is.** -/
theorem tidyText_of_tidy {lines : List Text} (h : Tidy clean lines)
    (hlast : lines.getLast? ≠ some []) : tidyText clean (joinLines lines) = joinLines lines := by
  by_cases hne : lines = []
  · subst hne
    rfl
  · have hbare : ∀ line ∈ lines, Bare line := by
      intro line hline
      obtain rfl | hclean := h.clean line hline
      · intro c hc
        cases hc
      · exact hclean.bare
    have hink : ['\n'].intercalate lines ≠ [] := by
      obtain ⟨first, rest, rfl⟩ := List.exists_cons_of_ne_nil hne
      intro hnil
      have hinks := congrArg ink hnil
      rw [ink_intercalate (by decide), inks_cons] at hinks
      obtain rfl | hclean := h.clean first List.mem_cons_self
      · exact h.head rfl
      · exact hclean.inked (List.append_eq_nil_iff.mp hinks).1
    have hjoin : joinLines lines = ['\n'].intercalate (lines ++ [[]]) := by
      rw [joinLines, if_neg hink, intercalate_concat hne, List.append_nil]
    have htidy : Tidy clean (lines ++ [[]]) := h.concat (.inl rfl) fun _ => ⟨hne, hlast⟩
    have hbare' : ∀ line ∈ lines ++ [[]], Bare line := by
      intro line hline
      obtain hline | hline := List.mem_append.mp hline
      · exact hbare line hline
      · rw [List.mem_singleton.mp hline]
        intro c hc
        cases hc
    have hplain : plain (joinLines lines) = joinLines lines := by
      refine plain_of_bare fun c hc => ?_
      rw [hjoin] at hc
      obtain hc | ⟨line, hline, hc⟩ := mem_intercalate hc
      · rw [List.mem_singleton.mp hc]
        decide
      · exact (hbare' line hline c hc).2
    have hsplit : (joinLines lines).splitOn '\n' = lines ++ [[]] := by
      rw [hjoin]
      refine List.splitOn_intercalate '\n' (fun line hline hmem => ?_) (by simp)
      exact (hbare' line hline '\n' hmem).1 rfl
    have hdrop : lines.rdropWhile (fun line => line = []) = lines := by
      refine List.rdropWhile_eq_self_iff.mpr fun hl hnil => hlast ?_
      rw [List.getLast?_eq_some_getLast hl, of_decide_eq_true hnil]
    have hloop : tidyLines clean [] (lines ++ [[]]) = lines ++ [[]] := tidyLines_of_tidy htidy
    rw [tidyText, hplain, hsplit, hloop, dropWhile_of_tidy htidy, List.rdropWhile_concat_pos _ _ _ (by simp), hdrop]

theorem mem_plain {text : Text} {c : Char} (h : c ∈ plain text) : c ≠ '\r' ∧ c ≠ Char.ofNat 0 := by
  obtain ⟨d, hd, rfl⟩ := List.mem_map.mp h
  have hsource : ∀ s : Text, ∀ e ∈ replacePair '\r' '\n' '\n' s, e = '\n' ∨ e ∈ s := by
    intro s
    induction s using replacePair.induct '\r' '\n' with
    | case1 => simp [replacePair]
    | case2 e => simp [replacePair]
    | case3 e e' s heq ih =>
      rw [replacePair, if_pos heq, List.forall_mem_cons]
      refine ⟨.inl rfl, fun x hx => (ih x hx).imp_right fun hmem => ?_⟩
      exact List.mem_cons_of_mem _ (List.mem_cons_of_mem _ hmem)
    | case4 e e' s heq ih =>
      rw [replacePair, if_neg heq, List.forall_mem_cons]
      exact ⟨.inr List.mem_cons_self, fun x hx => (ih x hx).imp_right (List.mem_cons_of_mem _)⟩
  by_cases hreturn : d = '\r'
  · rw [if_pos hreturn]
    decide
  · rw [if_neg hreturn]
    obtain rfl | hd := hsource _ d hd
    · decide
    · exact ⟨hreturn, of_decide_eq_true (List.mem_filter.mp hd).2⟩

theorem not_mem_of_mem_splitOn {sep : Char} {text line : Text} (h : line ∈ text.splitOn sep) :
    sep ∉ line := by
  induction text generalizing line with
  | nil =>
    rw [List.splitOn_nil, List.mem_singleton] at h
    rw [h]
    exact List.not_mem_nil
  | cons c text ih =>
    rw [List.splitOn_cons_eq_if_modifyHead] at h
    obtain ⟨first, rest, hsplit⟩ := List.exists_cons_of_ne_nil (List.splitOn_ne_nil sep text)
    have hrest : ∀ part ∈ rest, sep ∉ part := fun part hpart =>
      ih (hsplit ▸ List.mem_cons_of_mem first hpart)
    have hfirst : sep ∉ first := ih (hsplit ▸ List.mem_cons_self)
    rw [hsplit] at h
    by_cases hc : (c == sep) = true
    · rw [if_pos hc] at h
      obtain rfl | h := List.mem_cons.mp h
      · exact List.not_mem_nil
      · obtain rfl | h := List.mem_cons.mp h
        · exact hfirst
        · exact hrest line h
    · rw [if_neg hc, List.modifyHead_cons] at h
      obtain rfl | h := List.mem_cons.mp h
      · rw [List.mem_cons, not_or]
        exact ⟨fun heq => hc (by rw [heq]; exact beq_self_eq_true c), hfirst⟩
      · exact hrest line h

theorem bare_of_mem_splitOn {text line : Text} (h : line ∈ (plain text).splitOn '\n') :
    Bare line := by
  intro c hc
  have hmem := mem_intercalate_of_mem ['\n'] h hc
  rw [List.intercalate_splitOn] at hmem
  refine ⟨?_, mem_plain hmem⟩
  rintro rfl
  exact not_mem_of_mem_splitOn h hc

theorem tidy_plain (hclean : Cleans clean) (text : Text) :
    Tidy clean (tidyLines clean [] ((plain text).splitOn '\n')) :=
  tidy_tidyLines hclean (fun _ hline => bare_of_mem_splitOn hline) tidy_nil

/-- The lines of a cleaned text. -/
theorem exists_tidyText (hclean : Cleans clean) (text : Text) :
    ∃ lines, tidyText clean text = joinLines lines ∧ Tidy clean lines ∧
      lines.getLast? ≠ some [] := by
  have htidy := tidy_plain hclean text
  refine ⟨_, by rw [tidyText, dropWhile_of_tidy htidy], htidy.of_prefix (List.rdropWhile_prefix _ _),
    fun hlast => ?_⟩
  obtain ⟨init, hinit⟩ := List.getLast?_eq_some_iff.mp hlast
  have hne : init ++ [[]] ≠ [] := by simp
  rw [← hinit] at hne
  have hnot := List.rdropWhile_last_not _ _ hne
  simp only [hinit, List.getLast_concat, decide_true, not_true_eq_false] at hnot

/-- **Cleaning twice is cleaning once.** -/
theorem tidyText_tidyText (hclean : Cleans clean) (text : Text) :
    tidyText clean (tidyText clean text) = tidyText clean text := by
  obtain ⟨lines, heq, htidy, hlast⟩ := exists_tidyText hclean text
  rw [heq]
  exact tidyText_of_tidy htidy hlast

/-! ## No ink is lost -/

theorem inks_tidyLines (hclean : Cleans clean) {rawLines : List Text}
    (hraw : ∀ line ∈ rawLines, Bare line) :
    inks (tidyLines clean cleaned rawLines) = inks cleaned ++ inks rawLines := by
  induction rawLines generalizing cleaned with
  | nil => rw [tidyLines, inks_nil, List.append_nil]
  | cons rawLine rawLines ih =>
    rw [List.forall_mem_cons] at hraw
    rw [tidyLines]
    by_cases hblank : strip (rstrip rawLine) = []
    · have hink : ink rawLine = [] := by
        rw [← ink_rstrip, ← strip_eq_nil, hblank]
      rw [if_pos hblank, ih hraw.2, inks_cons, hink]
      split
      · simp
      · rfl
    · have hink : ink (clean (rstrip rawLine)) = ink rawLine := by
        rw [hclean.ink_eq _ (bare_rstrip hraw.1) (rstrip_rstrip rawLine)
          fun hnil => hblank (strip_eq_nil.mpr hnil), ink_rstrip]
      rw [if_neg hblank, ih hraw.2, inks_append, inks_cons, inks_nil, List.append_nil, hink,
        inks_cons, List.append_assoc]

theorem inks_rdropWhile (lines : List Text) :
    inks (lines.rdropWhile fun line => line = []) = inks lines := by
  have hsplit := List.rdropWhile_append_rtakeWhile (p := fun line : Text => decide (line = []))
    (l := lines)
  conv_rhs => rw [← hsplit, inks_append]
  have hnil : inks (lines.rtakeWhile fun line => decide (line = [])) = [] := by
    rw [inks, List.flatMap_eq_nil_iff]
    intro line hline
    have hempty := List.mem_rtakeWhile_imp hline
    rw [of_decide_eq_true hempty]
    rfl
  rw [hnil, List.append_nil]

theorem ink_joinLines (lines : List Text) : ink (joinLines lines) = inks lines := by
  have hink : ink (['\n'].intercalate lines) = inks lines := ink_intercalate (by decide) lines
  rw [← hink, joinLines]
  split
  · next hnil => rw [hnil]
  · rw [ink_append]
    exact List.append_nil _

theorem ink_plain (text : Text) : ink (plain text) = (ink text).filter fun c => c ≠ Char.ofNat 0 := by
  rw [plain, ink_replaceChar (by decide) (by decide),
    ink_replacePair (by decide) (by decide) (by decide), ink, ink, List.filter_filter,
    List.filter_filter]
  exact List.filter_congr fun c _ => Bool.and_comm _ _

/-- **Only whitespace and NUL are lost.** -/
theorem ink_tidyText (hclean : Cleans clean) (text : Text) :
    ink (tidyText clean text) = (ink text).filter fun c => c ≠ Char.ofNat 0 := by
  have htidy := tidy_plain hclean text
  rw [tidyText, ink_joinLines, inks_rdropWhile, dropWhile_of_tidy htidy,
    inks_tidyLines hclean fun line => bare_of_mem_splitOn, inks_nil, List.nil_append,
    inks_splitOn (by decide), ink_plain]

end

/-! ## Headings -/

/-- The last character of a line that is stripped at its end. -/
theorem ink_ne_nil_of_stripped {front tail : Text} (h : rstrip (front ++ tail) = front ++ tail)
    (hne : tail ≠ []) : ink tail ≠ [] := by
  intro hink
  have hblank := ink_eq_nil.mp hink
  have hstrip := rstrip_append_blank hblank front
  rw [h] at hstrip
  have hle := congrArg List.length hstrip ▸ length_rstrip_le front
  rw [List.length_append] at hle
  have hpos := List.length_pos_of_ne_nil hne
  omega

theorem rstrip_append {front tail : Text} (h : rstrip tail = tail) (hne : tail ≠ []) :
    rstrip (front ++ tail) = front ++ tail := by
  refine List.rdropWhile_eq_self_iff.mpr fun hl => ?_
  rw [List.getLast_append_of_ne_nil _ hne]
  exact List.rdropWhile_eq_self_iff.mp h hne

theorem strip_strip (s : Text) : strip (strip s) = strip s := by
  by_cases hs : s.dropWhile isSpace = []
  · have hnil : strip s = [] := by
      rw [strip, hs]
      rfl
    rw [hnil]
    rfl
  · -- what is left begins with ink
    have hfirst : (strip s).dropWhile isSpace = strip s := by
      obtain ⟨c, rest, hcons⟩ := List.exists_cons_of_ne_nil hs
      have hc : isSpace c = false := by
        have hhead := List.head_dropWhile_not isSpace hs
        simp only [hcons, List.head_cons] at hhead
        exact hhead
      have hfront : strip s <+: c :: rest := by
        rw [← hcons]
        exact List.rdropWhile_prefix isSpace _
      cases hstrip : strip s with
      | nil => rfl
      | cons first rest' =>
        rw [hstrip] at hfront
        obtain ⟨rfl, -⟩ := List.cons_prefix_cons.mp hfront
        exact List.dropWhile_cons_of_neg (by simp [hc])
    have hlast : rstrip (strip s) = strip s := rstrip_rstrip _
    conv_lhs => rw [strip, hfirst, hlast]

open Markdown in
/-- The clean form of a heading, and of its clean form. -/
theorem cleanLine_heading {line : Text} (hbare : Bare line) (hstripped : rstrip line = line)
    {h : Heading} (hheading : processorHeading line = some h) :
    cleanLine (cleanLine line) = cleanLine line ∧ rstrip (cleanLine line) = cleanLine line ∧
      ink (cleanLine line) = ink line := by
  have hnewline : '\n' ∉ line := fun hmem => (hbare '\n' hmem).1 rfl
  obtain ⟨indent, tail, rfl, -, hatx, htitle⟩ := (processorHeading_eq_some hnewline).mp hheading
  obtain ⟨c, d, rest, htail, hc⟩ := hatx.tail_gap
  have hline : cleanLine (indent ++ (List.replicate h.level '#' ++ tail)) =
      List.replicate h.level '#' ++ ' ' :: h.title := by
    rw [cleanLine, hheading]
  have hink : ink tail ≠ [] := by
    rw [← List.append_assoc] at hstripped
    exact ink_ne_nil_of_stripped hstripped (by rw [htail]; exact List.cons_ne_nil _ _)
  have hne : h.title ≠ [] := by
    rw [htitle]
    exact fun hnil => hink (strip_eq_nil.mp hnil)
  have hrstrip : rstrip h.title = h.title := by
    rw [htitle]
    exact rstrip_rstrip _
  have hsub : '\n' ∉ List.replicate h.level '#' ++ ' ' :: h.title := by
    intro hmem
    obtain hmem | hmem := List.mem_append.mp hmem
    · exact absurd (List.eq_of_mem_replicate hmem) (by decide)
    · obtain hmem | hmem := List.mem_cons.mp hmem
      · exact absurd hmem (by decide)
      · rw [htitle] at hmem
        exact hnewline (by simp [mem_of_mem_strip hmem])
  have hagain : processorHeading (List.replicate h.level '#' ++ ' ' :: h.title) = some h := by
    obtain ⟨first, title, hcons⟩ := List.exists_cons_of_ne_nil hne
    refine (processorHeading_eq_some hsub).mpr ⟨[], ' ' :: h.title, rfl, Nat.zero_le _,
      ⟨by simp, hatx.level_pos, hatx.level_le, ' ', first, title, by rw [hcons], by decide⟩, ?_⟩
    have hspace : strip (' ' :: h.title) = strip h.title :=
      strip_blank_append (List.forall_mem_singleton.mpr rfl) h.title
    rw [hspace, htitle, strip_strip]
  rw [hline]
  refine ⟨?_, ?_, ?_⟩
  · rw [cleanLine, hagain]
  · rw [← List.singleton_append, ← List.append_assoc]
    exact rstrip_append hrstrip hne
  · have hindent : ink indent = [] := ink_eq_nil.mpr fun c hc =>
      isSpace_of_isBlank (hatx.indent_blank c hc)
    rw [ink_append, ink_append, ink_append, hindent, ink_cons_of_space (by decide), htitle, ink_strip,
      List.nil_append]

theorem cleans_cleanLine : Cleans Markdown.cleanLine := by
  have hnone : ∀ line, Markdown.processorHeading line = none → Markdown.cleanLine line = line := by
    intro line h
    rw [Markdown.cleanLine, h]
  refine ⟨fun line hbare hstripped _ => ?_, fun line hbare hstripped _ => ?_, fun line hbare => ?_,
    fun line hbare hstripped _ => ?_⟩
  · cases h : Markdown.processorHeading line with
    | none => rw [hnone line h, hnone line h]
    | some heading => exact (cleanLine_heading hbare hstripped h).1
  · cases h : Markdown.processorHeading line with
    | none => rw [hnone line h, hstripped]
    | some heading => exact (cleanLine_heading hbare hstripped h).2.1
  · intro c hc
    obtain rfl | rfl | hmem := Chunker.mem_cleanLine hc
    · decide
    · decide
    · exact hbare c hmem
  · cases h : Markdown.processorHeading line with
    | none => rw [hnone line h]
    | some heading => exact (cleanLine_heading hbare hstripped h).2.2

/-! ## The processors -/

/-- **Cleaning is idempotent, and loses nothing but whitespace and NUL.** -/
theorem cleaning_idempotent (text : Text) :
    Markdown.normalizeText (Markdown.normalizeText text) = Markdown.normalizeText text ∧
      (TxtProcessor.cleanText (TxtProcessor.cleanText text).1).1 = (TxtProcessor.cleanText text).1 ∧
      ink (Markdown.normalizeText text) = (ink text).filter (fun c => c ≠ Char.ofNat 0) ∧
      ink (TxtProcessor.cleanText text).1 = (ink text).filter (fun c => c ≠ Char.ofNat 0) ∧
      Markdown.extractSections (Markdown.normalizeText (Markdown.normalizeText text)) =
        Markdown.extractSections (Markdown.normalizeText text) := by
  have hmarkdown : Markdown.normalizeText (Markdown.normalizeText text) =
      Markdown.normalizeText text := by
    simp only [normalizeText_eq_tidyText]
    exact tidyText_tidyText cleans_cleanLine text
  refine ⟨hmarkdown, ?_, ?_, ?_, congrArg Markdown.extractSections hmarkdown⟩
  · simp only [cleanText_eq_tidyText]
    exact tidyText_tidyText cleans_id text
  · rw [normalizeText_eq_tidyText]
    exact ink_tidyText cleans_cleanLine text
  · rw [cleanText_eq_tidyText]
    exact ink_tidyText cleans_id text

end Cleaning

end DocFlow
