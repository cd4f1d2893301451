import DocFlow.Lib.Pattern
import Mathlib.Data.List.DropRight

/-!
# Markdown headings, found twice

`MdProcessor` normalises a Markdown text and reports its sections; `MarkdownChunker` cuts the cleaned
text by the reported sections, or, when there are none, by sections that it finds itself.  Both run
the same loop (`scanSections`) over the lines, each with its own pattern for a heading.

* `processorHeading_eq_some`, `chunkerHeading_eq_some`: which lines are headings for the two.
* `outline_scanSections`: the loop in terms of what each section consists of (`cut`).
* `cut_eq_iff`: two patterns find the same sections only if they agree on every line.
* `sections_agree_iff`: the two components find the same sections exactly in the texts without a
  line that is `IndentedHeading` or `WideHeading`.
-/

namespace DocFlow.Markdown

open PyString (isSpace)
open Pattern Text

/-! ## The patterns -/

/-- `[ \t]`. -/
def isBlank (c : Char) : Bool := c = ' ' || c = '\t'

/-- `.+?` -/
def titleGroup : Group := ⟨fun c => c ≠ '\n', 1, none, true⟩

/-- `^[ \t]{0,3}(#{1,6})[ \t]+(.+?)\s*$`. -/
def processorPattern : List Group :=
  [⟨isBlank, 0, some 3, false⟩, ⟨fun c => c = '#', 1, some 6, false⟩, ⟨isBlank, 1, none, false⟩,
    titleGroup, ⟨isSpace, 0, none, false⟩]

/-- `^(#{1,6})\s+(.+?)\s*$`. -/
def chunkerPattern : List Group :=
  [⟨fun c => c = '#', 1, some 6, false⟩, ⟨isSpace, 1, none, false⟩, titleGroup,
    ⟨isSpace, 0, none, false⟩]

structure Heading where
  level : Nat
  title : Text
deriving DecidableEq, Repr

def processorHeading (line : Text) : Option Heading :=
  match matchGroups processorPattern line with
  | some [_, marks, _, title, _] => some ⟨marks.length, strip title⟩
  | _ => none

def chunkerHeading (line : Text) : Option Heading :=
  match matchGroups chunkerPattern line with
  | some [marks, _, title, _] => some ⟨marks.length, strip title⟩
  | _ => none

example : processorHeading "  ##  标题 ".toList = some ⟨2, "标题".toList⟩ := by decide

/-! ## Normalisation -/

/-- What becomes of a line that is not blank. -/
def cleanLine (line : Text) : Text :=
  match processorHeading line with
  | some h => List.replicate h.level '#' ++ ' ' :: h.title
  | none => line

/-- The loop of `_normalize_text`, with the lines cleaned so far. -/
def cleanLines (cleaned : List Text) : List Text → List Text
  | [] => cleaned
  | rawLine :: rawLines =>
    let line := rstrip rawLine
    if strip line = [] then
      cleanLines (if cleaned ≠ [] ∧ cleaned.getLast? ≠ some [] then cleaned ++ [[]] else cleaned)
        rawLines
    else cleanLines (cleaned ++ [cleanLine line]) rawLines

/-- `_normalize_text`. -/
def normalizeText (text : Text) : Text :=
  let text := replaceChar '\r' '\n'
    (replacePair '\r' '\n' '\n' (text.filter fun c => c ≠ Char.ofNat 0))
  let cleaned := ((cleanLines [] (text.splitOn '\n')).dropWhile fun line => line = []).rdropWhile
    fun line => line = []
  let cleanedText := ['\n'].intercalate cleaned
  if cleanedText = [] then [] else cleanedText ++ ['\n']

/-! ## Sections -/

/-- A section, by the numbers of its lines, from 1 on. -/
structure Section where
  level : Option Nat
  title : Option Text
  sectionPath : List Text
  headingLine : Option Nat
  startLine : Nat
  endLine : Nat
deriving DecidableEq, Repr

/-- The headings that the new one is below, and the new one. -/
def pushHeading (stack : List Heading) (h : Heading) : List Heading :=
  stack.rdropWhile (fun above => h.level ≤ above.level) ++ [h]

/-- The loop of both parsers, at the line of number `n`. -/
def scanSections (heading : Text → Option Heading) :
    Nat → List Heading → Option Section → List Text → List Section
  | n, _, current, [] => (current.map fun s => { s with endLine := n - 1 }).toList
  | n, stack, current, line :: lines =>
    match heading line with
    | some h =>
      let stack := pushHeading stack h
      (current.map fun s => { s with endLine := n - 1 }).toList ++
        scanSections heading (n + 1) stack
          (some ⟨some h.level, some h.title, stack.map Heading.title, some n, n, n⟩) lines
    | none =>
      if current = none ∧ strip line ≠ [] then
        scanSections heading (n + 1) stack (some ⟨none, none, [], none, n, n⟩) lines
      else scanSections heading (n + 1) stack current lines

/-- `MdProcessor._extract_sections`. -/
def extractSections (text : Text) : List Section :=
  scanSections processorHeading 1 [] none (splitlines text)

/-- `MarkdownChunker._parse_sections`. -/
def parseSections (lines : List Text) : List Section :=
  scanSections chunkerHeading 1 [] none lines

/-- How many lines are before the body. -/
def Section.offset (s : Section) : Nat :=
  match s.headingLine with
  | some headingLine => headingLine
  | none => s.startLine - 1

/-- The lines of the body, without the heading. -/
def Section.bodyLines (lines : List Text) (s : Section) : List Text :=
  (lines.take s.endLine).drop s.offset

/-! ## Which lines are headings -/

/-- A line in its parts: the indentation, `level` marks, and a tail that begins with a character of
`gap` and goes on. -/
structure Atx (gap : Char → Bool) (indent : Text) (level : Nat) (tail : Text) : Prop where
  indent_blank : ∀ c ∈ indent, isBlank c = true
  level_pos : 1 ≤ level
  level_le : level ≤ 6
  tail_gap : ∃ c d rest, tail = c :: d :: rest ∧ gap c = true

theorem isSpace_of_isBlank {c : Char} (h : isBlank c = true) : isSpace c = true := by
  simp only [isBlank, Bool.or_eq_true, decide_eq_true_eq] at h
  obtain rfl | rfl := h <;> decide

theorem ne_hash_of_isSpace {c : Char} (h : isSpace c = true) : c ≠ '#' := by
  rintro rfl
  exact absurd h (by decide)

/-- The parts of a line can be read off. -/
theorem Atx.parts {gap : Char → Bool} (hgap : ∀ c, gap c = true → isSpace c = true) {indent : Text}
    {level : Nat} {tail : Text} (h : Atx gap indent level tail) :
    let line := indent ++ (List.replicate level '#' ++ tail)
    let marked := line.dropWhile fun c => c ≠ '#'
    (line.takeWhile fun c => c ≠ '#') = indent ∧
      (marked.takeWhile fun c => c = '#') = List.replicate level '#' ∧
      (marked.dropWhile fun c => c = '#') = tail := by
  have hindent : ∀ c ∈ indent, (decide (c ≠ '#')) = true := by
    intro c hc
    exact decide_eq_true (ne_hash_of_isSpace (isSpace_of_isBlank (h.indent_blank c hc)))
  have hmarks : ∀ c ∈ List.replicate level '#', (decide (c = '#')) = true := by
    intro c hc
    exact decide_eq_true (List.eq_of_mem_replicate hc)
  obtain ⟨c, d, rest, rfl, hc⟩ := h.tail_gap
  have hstop : decide (c = '#') = false := decide_eq_false (ne_hash_of_isSpace (hgap c hc))
  obtain ⟨n, rfl⟩ := Nat.exists_eq_add_of_le' h.level_pos
  simp only
  rw [List.dropWhile_append_of_pos hindent, List.takeWhile_append_of_pos hindent,
    show (List.replicate (n + 1) '#' ++ c :: d :: rest).dropWhile (fun c => decide (c ≠ '#')) =
      List.replicate (n + 1) '#' ++ c :: d :: rest from rfl,
    show (List.replicate (n + 1) '#' ++ c :: d :: rest).takeWhile (fun c => decide (c ≠ '#')) = []
      from rfl,
    List.dropWhile_append_of_pos hmarks, List.takeWhile_append_of_pos hmarks,
    List.dropWhile_cons_of_neg (by simp [hstop]), List.takeWhile_cons_of_neg (by simp [hstop])]
  simp

theorem Atx.unique {gap gap' : Char → Bool} (hgap : ∀ c, gap c = true → isSpace c = true)
    (hgap' : ∀ c, gap' c = true → isSpace c = true) {indent indent' : Text} {level level' : Nat}
    {tail tail' : Text} (h : Atx gap indent level tail) (h' : Atx gap' indent' level' tail')
    (heq : indent ++ (List.replicate level '#' ++ tail) =
      indent' ++ (List.replicate level' '#' ++ tail')) :
    indent = indent' ∧ level = level' ∧ tail = tail' := by
  obtain ⟨hindent, hmarks, htail⟩ := h.parts hgap
  obtain ⟨hindent', hmarks', htail'⟩ := h'.parts hgap'
  rw [heq] at hindent hmarks htail
  refine ⟨hindent.symm.trans hindent', ?_, htail.symm.trans htail'⟩
  have hlen := congrArg List.length (hmarks.symm.trans hmarks')
  simpa using hlen

/-- The parts that the last three groups take of a tail. -/
theorem atx_of_takes {gap : Char → Bool} (hgap : ∀ c, gap c = true → isSpace c = true)
    {indent blanks title trail : Text} {level : Nat} (hindent : ∀ c ∈ indent, isBlank c = true)
    (hlevel : 1 ≤ level ∧ level ≤ 6)
    (hblanks : Group.Takes ⟨gap, 1, none, false⟩ blanks) (htitle : titleGroup.Takes title)
    (htrail : Group.Takes ⟨isSpace, 0, none, false⟩ trail) :
    Atx gap indent level (blanks ++ (title ++ trail)) ∧
      strip (blanks ++ (title ++ trail)) = strip title := by
  obtain ⟨hblank, hone, -⟩ := hblanks
  obtain ⟨-, htitle, -⟩ := htitle
  constructor
  · refine ⟨hindent, hlevel.1, hlevel.2, ?_⟩
    cases blanks with
    | nil => simp at hone
    | cons c blanks =>
      cases title with
      | nil => simp [titleGroup] at htitle
      | cons d title =>
        cases blanks with
        | nil => exact ⟨c, d, title ++ trail, rfl, hblank c List.mem_cons_self⟩
        | cons d' blanks => exact ⟨c, d', _, rfl, hblank c List.mem_cons_self⟩
  · rw [strip_blank_append fun c hc => hgap c (hblank c hc), strip_append_blank htrail.1]

/-- A tail splits into parts that the last three groups take. -/
theorem takes_of_tail {gap : Char → Bool} {c d : Char} {rest : Text} (hc : gap c = true)
    (hline : '\n' ∉ d :: rest) :
    Group.Takes ⟨gap, 1, none, false⟩ [c] ∧ titleGroup.Takes (d :: rest) ∧
      Group.Takes ⟨isSpace, 0, none, false⟩ [] := by
  refine ⟨⟨by simpa using hc, by simp, by simp⟩, ⟨?_, ?_, ?_⟩, ⟨by simp, by simp, by simp⟩⟩
  · intro x hx
    exact decide_eq_true (fun h => hline (h ▸ hx))
  · simp [titleGroup]
  · simp [titleGroup]

theorem takes_marks {level : Nat} (hpos : 1 ≤ level) (hle : level ≤ 6) :
    Group.Takes ⟨fun c => c = '#', 1, some 6, false⟩ (List.replicate level '#') := by
  refine ⟨?_, by simpa using hpos, ?_⟩
  · intro c hc
    exact decide_eq_true (List.eq_of_mem_replicate hc)
  · intro most hmost
    obtain rfl := Option.some.inj hmost
    simpa using hle

theorem eq_replicate_of_takes {marks : Text}
    (h : Group.Takes ⟨fun c => c = '#', 1, some 6, false⟩ marks) :
    marks = List.replicate marks.length '#' ∧ 1 ≤ marks.length ∧ marks.length ≤ 6 := by
  refine ⟨List.eq_replicate_of_mem ?_, h.2.1, h.2.2 6 rfl⟩
  intro c hc
  exact of_decide_eq_true (h.1 c hc)

/-- A line without a newline ends where the pattern does. -/
theorem eq_flatten_of_matchGroups {gs : List Group} {line : Text} {parts : List Text}
    (hline : '\n' ∉ line) (h : matchGroups gs line = some parts) :
    Fits gs parts ∧ line = parts.flatten := by
  obtain ⟨hfits, heq | heq⟩ := fits_of_matchGroups h
  · exact ⟨hfits, heq⟩
  · refine absurd ?_ hline
    rw [heq]
    simp

/-- Either pattern: an indentation of at most `most`, and a gap after the marks. -/
def headingGroups (most : Nat) (gap : Char → Bool) : List Group :=
  [⟨isBlank, 0, some most, false⟩, ⟨fun c => c = '#', 1, some 6, false⟩, ⟨gap, 1, none, false⟩,
    titleGroup, ⟨isSpace, 0, none, false⟩]

def readHeading (most : Nat) (gap : Char → Bool) (line : Text) : Option Heading :=
  match matchGroups (headingGroups most gap) line with
  | some [_, marks, _, title, _] => some ⟨marks.length, strip title⟩
  | _ => none

/-- A line is a heading when it splits into an indentation, marks and a tail. -/
theorem readHeading_eq_some {most : Nat} {gap : Char → Bool}
    (hspace : ∀ c, gap c = true → isSpace c = true) {line : Text} (hline : '\n' ∉ line)
    {h : Heading} : readHeading most gap line = some h ↔ ∃ indent tail,
      line = indent ++ (List.replicate h.level '#' ++ tail) ∧ indent.length ≤ most ∧
        Atx gap indent h.level tail ∧ h.title = strip tail := by
  have hsound : ∀ parts, matchGroups (headingGroups most gap) line = some parts →
      ∃ indent tail level, readHeading most gap line = some ⟨level, strip tail⟩ ∧
        line = indent ++ (List.replicate level '#' ++ tail) ∧ indent.length ≤ most ∧
          Atx gap indent level tail := by
    intro parts hmatch
    obtain ⟨hfits, heq⟩ := eq_flatten_of_matchGroups hline hmatch
    obtain _ | ⟨hindent, _ | ⟨hmarks, _ | ⟨hblanks, _ | ⟨htitle, _ | ⟨htrail, ⟨⟩⟩⟩⟩⟩⟩ := hfits
    rename_i indent marks blanks title trail
    obtain ⟨hreplicate, hpos, hle⟩ := eq_replicate_of_takes hmarks
    obtain ⟨hatx, hstrip⟩ := atx_of_takes hspace hindent.1 ⟨hpos, hle⟩ hblanks
      htitle htrail
    refine ⟨indent, blanks ++ (title ++ trail), marks.length, ?_, ?_, hindent.2.2 most rfl, hatx⟩
    · rw [readHeading, hmatch, hstrip]
    · rw [← hreplicate, heq]
      simp
  constructor
  · intro h'
    cases hmatch : matchGroups (headingGroups most gap) line with
    | none => simp [readHeading, hmatch] at h'
    | some parts =>
      obtain ⟨indent, tail, level, hheading, heq, hlen, hatx⟩ := hsound parts hmatch
      obtain rfl := Option.some.inj (hheading.symm.trans h')
      exact ⟨indent, tail, heq, hlen, hatx, rfl⟩
  · rintro ⟨indent, tail, heq, hlen, hatx, htitle⟩
    obtain ⟨c, d, rest, rfl, hc⟩ := hatx.tail_gap
    have hrest : '\n' ∉ d :: rest := by
      intro hmem
      apply hline
      rw [heq]
      simp [List.mem_cons.mp hmem]
    obtain ⟨hgap, htitles, htrail⟩ := takes_of_tail hc hrest
    have hindent : Group.Takes ⟨isBlank, 0, some most, false⟩ indent :=
      ⟨hatx.indent_blank, by simp, by simpa using hlen⟩
    have hfits : Fits (headingGroups most gap) [indent, List.replicate h.level '#', [c], d :: rest, []] :=
      .cons hindent (.cons (takes_marks hatx.level_pos hatx.level_le)
        (.cons hgap (.cons htitles (.cons htrail .nil))))
    obtain ⟨parts, hmatch⟩ := exists_matchGroups hfits
    have hflat : [indent, List.replicate h.level '#', [c], d :: rest, []].flatten = line := by
      rw [heq]
      simp
    rw [hflat] at hmatch
    obtain ⟨indent', tail', level', hheading, heq', -, hatx'⟩ := hsound parts hmatch
    obtain ⟨rfl, rfl, rfl⟩ := hatx.unique hspace hspace hatx' (heq.symm.trans heq')
    rw [hheading, ← htitle]

/-- **The headings of the processor**: up to three spaces or tabs, the marks, a space or a tab. -/
theorem processorHeading_eq_some {line : Text} (hline : '\n' ∉ line) {h : Heading} :
    processorHeading line = some h ↔ ∃ indent tail,
      line = indent ++ (List.replicate h.level '#' ++ tail) ∧ indent.length ≤ 3 ∧
        Atx isBlank indent h.level tail ∧ h.title = strip tail :=
  readHeading_eq_some (fun _ => isSpace_of_isBlank) hline

/-- The chunker's pattern takes no indentation. -/
theorem chunkerHeading_eq_readHeading (line : Text) :
    chunkerHeading line = readHeading 0 isSpace line := by
  have hmatch : matchGroups (headingGroups 0 isSpace) line =
      (matchGroups chunkerPattern line).map fun parts => [] :: parts := by
    have hlengths : Group.lengths ⟨isBlank, 0, some 0, false⟩ line = [0] := by
      simp [Group.lengths, Group.upper]
    rw [headingGroups, matchGroups, hlengths, List.findSome?_singleton]
    rfl
  unfold chunkerHeading readHeading
  rw [hmatch]
  cases matchGroups chunkerPattern line with
  | none => rfl
  | some parts =>
    obtain _ | ⟨_, _ | ⟨_, _ | ⟨_, _ | ⟨_, _ | _⟩⟩⟩⟩ := parts <;> rfl

/-- **The headings of the chunker**: the marks, and any whitespace. -/
theorem chunkerHeading_eq_some {line : Text} (hline : '\n' ∉ line) {h : Heading} :
    chunkerHeading line = some h ↔ ∃ tail, line = List.replicate h.level '#' ++ tail ∧
      Atx isSpace [] h.level tail ∧ h.title = strip tail := by
  rw [chunkerHeading_eq_readHeading, readHeading_eq_some (fun _ h => h) hline]
  constructor
  · rintro ⟨indent, tail, heq, hlen, hatx, htitle⟩
    obtain rfl : indent = [] := List.length_eq_zero_iff.mp (by omega)
    exact ⟨tail, heq, hatx, htitle⟩
  · rintro ⟨tail, heq, hatx, htitle⟩
    exact ⟨[], tail, heq, le_rfl, hatx, htitle⟩

/-! ## Where the patterns part -/

/-- A heading behind one to three spaces or tabs: one for the processor only. -/
def IndentedHeading (line : Text) : Prop :=
  ∃ indent level tail, line = indent ++ (List.replicate level '#' ++ tail) ∧
    indent ≠ [] ∧ indent.length ≤ 3 ∧ Atx isBlank indent level tail

/-- Marks before whitespace that is no space and no tab: a heading for the chunker only. -/
def WideHeading (line : Text) : Prop :=
  ∃ level tail, line = List.replicate level '#' ++ tail ∧
    Atx (fun c => isSpace c && !isBlank c) [] level tail

theorem Atx.mono {gap gap' : Char → Bool} {indent tail : Text} {level : Nat}
    (h : Atx gap indent level tail) (hgap : ∀ c, gap c = true → gap' c = true) :
    Atx gap' indent level tail := by
  obtain ⟨c, d, rest, htail, hc⟩ := h.tail_gap
  exact ⟨h.indent_blank, h.level_pos, h.level_le, c, d, rest, htail, hgap c hc⟩

/-- The two patterns read a line alike unless it is of one of these kinds. -/
theorem heading_eq_iff {line : Text} (hline : '\n' ∉ line) :
    processorHeading line = chunkerHeading line ↔ ¬ IndentedHeading line ∧ ¬ WideHeading line := by
  have hblank : ∀ c, isBlank c = true → isSpace c = true := fun _ => isSpace_of_isBlank
  constructor
  · intro heq
    constructor
    · rintro ⟨indent, level, tail, hsplit, hne, hlen, hatx⟩
      have hprocessor := (processorHeading_eq_some hline (h := ⟨level, strip tail⟩)).mpr
        ⟨indent, tail, hsplit, hlen, hatx, rfl⟩
      rw [heq] at hprocessor
      obtain ⟨tail', hsplit', hatx', -⟩ := (chunkerHeading_eq_some hline).mp hprocessor
      have hparts := hatx.unique hblank (fun _ h => h) hatx' (hsplit.symm.trans hsplit')
      exact hne hparts.1
    · rintro ⟨level, tail, hsplit, hatx⟩
      have hspace : ∀ c, (isSpace c && !isBlank c) = true → isSpace c = true := by
        intro c hc
        exact (Bool.and_eq_true_iff.mp hc).1
      have hchunker := (chunkerHeading_eq_some hline (h := ⟨level, strip tail⟩)).mpr
        ⟨tail, hsplit, hatx.mono hspace, rfl⟩
      rw [← heq] at hchunker
      obtain ⟨indent, tail', hsplit', -, hatx', -⟩ := (processorHeading_eq_some hline).mp hchunker
      obtain ⟨rfl, -, rfl⟩ := hatx.unique hspace hblank hatx' (hsplit.symm.trans hsplit')
      obtain ⟨c, d, rest, htail, hc⟩ := hatx.tail_gap
      obtain ⟨c', d', rest', htail', hc'⟩ := hatx'.tail_gap
      obtain rfl : c = c' := by
        rw [htail] at htail'
        exact (List.cons.inj htail').1
      simp [hc'] at hc
  · rintro ⟨hindented, hwide⟩
    apply Option.ext
    intro h
    rw [processorHeading_eq_some hline, chunkerHeading_eq_some hline]
    constructor
    · rintro ⟨indent, tail, hsplit, hlen, hatx, htitle⟩
      obtain rfl : indent = [] := by
        by_contra hne
        exact hindented ⟨indent, h.level, tail, hsplit, hne, hlen, hatx⟩
      exact ⟨tail, hsplit, hatx.mono hblank, htitle⟩
    · rintro ⟨tail, hsplit, hatx, htitle⟩
      obtain ⟨c, d, rest, htail, hc⟩ := hatx.tail_gap
      have hgap : isBlank c = true := by
        by_contra hne
        exact hwide ⟨h.level, tail, hsplit, hatx.indent_blank, hatx.level_pos, hatx.level_le, c, d,
          rest, htail, by simp [hc, hne]⟩
      exact ⟨[], tail, hsplit, by simp, ⟨hatx.indent_blank, hatx.level_pos, hatx.level_le, c, d,
        rest, htail, hgap⟩, htitle⟩

/-! ## The loop, by what the sections consist of -/

/-- A section without its line numbers. -/
structure Outline where
  level : Option Nat
  title : Option Text
  sectionPath : List Text
  body : List Text
deriving DecidableEq, Repr

def Section.outline (lines : List Text) (s : Section) : Outline :=
  ⟨s.level, s.title, s.sectionPath, s.bodyLines lines⟩

/-- `scanSections` over outlines: a line goes to the body of the section that is open. -/
def cut (heading : Text → Option Heading) :
    List Heading → Option Outline → List Text → List Outline
  | _, current, [] => current.toList
  | stack, current, line :: lines =>
    match heading line, current with
    | some h, _ =>
      let stack := pushHeading stack h
      current.toList ++
        cut heading stack (some ⟨some h.level, some h.title, stack.map Heading.title, []⟩) lines
    | none, some o => cut heading stack (some { o with body := o.body ++ [line] }) lines
    | none, none =>
      if strip line = [] then cut heading stack none lines
      else cut heading stack (some ⟨none, none, [], [line]⟩) lines

/-- An open section, after these lines. -/
def Section.outlineTo (before : List Text) (s : Section) : Outline :=
  ⟨s.level, s.title, s.sectionPath, before.drop s.offset⟩

variable {heading heading' : Text → Option Heading}

theorem outline_close (before lines : List Text) (s : Section) :
    Section.outline (before ++ lines) { s with endLine := before.length } = s.outlineTo before := by
  have hbody : Section.bodyLines (before ++ lines) { s with endLine := before.length } =
      before.drop s.offset := by
    rw [Section.bodyLines, List.take_left]
    rfl
  rw [Section.outline, hbody, Section.outlineTo]

theorem outlineTo_append {before : List Text} {s : Section} (h : s.offset ≤ before.length)
    (line : Text) : s.outlineTo (before ++ [line]) =
      { s.outlineTo before with body := (s.outlineTo before).body ++ [line] } := by
  simp only [Section.outlineTo, List.drop_append_of_le_length h]

/-- **The loop cuts the lines**, those before the current one being `before`. -/
theorem outline_scanSections (before lines : List Text) (stack : List Heading)
    (current : Option Section) (hcurrent : ∀ s ∈ current, s.offset ≤ before.length) :
    (scanSections heading (before.length + 1) stack current lines).map
        (Section.outline (before ++ lines)) =
      cut heading stack (current.map (Section.outlineTo before)) lines := by
  induction lines generalizing before stack current with
  | nil =>
    cases current with
    | none => rfl
    | some s =>
      simp only [scanSections, cut, Option.map_some, Option.toList_some, List.map_cons,
        List.map_nil, Nat.add_sub_cancel]
      rw [outline_close]
  | cons line lines ih =>
    have hlen : (before ++ [line]).length = before.length + 1 := List.length_append
    have hlines : before ++ line :: lines = (before ++ [line]) ++ lines := by simp
    cases hline : heading line with
    | some h =>
      have hnext := ih (before ++ [line]) (pushHeading stack h)
        (some ⟨some h.level, some h.title, (pushHeading stack h).map Heading.title,
          some (before.length + 1), before.length + 1, before.length + 1⟩)
        (by simp [Section.offset])
      rw [hlen, ← hlines] at hnext
      have hopen : Section.outlineTo (before ++ [line]) ⟨some h.level, some h.title,
          (pushHeading stack h).map Heading.title, some (before.length + 1), before.length + 1,
          before.length + 1⟩ =
          ⟨some h.level, some h.title, (pushHeading stack h).map Heading.title, []⟩ := by
        simp [Section.outlineTo, Section.offset]
      rw [Option.map_some, hopen] at hnext
      simp only [scanSections, cut, hline, List.map_append, hnext, Nat.add_sub_cancel]
      congr 1
      cases current with
      | none => rfl
      | some s => simp only [Option.map_some, Option.toList_some, List.map_cons, List.map_nil,
          outline_close]
    | none =>
      cases current with
      | some s =>
        have hs : s.offset ≤ before.length := hcurrent s rfl
        have hnext := ih (before ++ [line]) stack (some s) (by
          intro x hx
          obtain rfl := Option.some.inj hx
          rw [hlen]
          omega)
        rw [hlen, ← hlines, Option.map_some, outlineTo_append hs] at hnext
        simpa [scanSections, cut, hline] using hnext
      | none =>
        by_cases hblank : strip line = []
        · have hnext := ih (before ++ [line]) stack none (by simp)
          rw [hlen, ← hlines] at hnext
          simpa [scanSections, cut, hline, hblank] using hnext
        · have hnext := ih (before ++ [line]) stack
            (some ⟨none, none, [], none, before.length + 1, before.length + 1⟩)
            (by simp [Section.offset])
          rw [hlen, ← hlines] at hnext
          simpa [scanSections, cut, hline, hblank, Section.outlineTo, Section.offset] using hnext

/-! ## Two patterns -/

/-- The open section comes first, with more lines in its body. -/
theorem cut_some (heading : Text → Option Heading) (stack : List Heading) (o : Outline)
    (lines : List Text) :
    ∃ extra rest, cut heading stack (some o) lines = { o with body := o.body ++ extra } :: rest := by
  induction lines generalizing stack o with
  | nil => exact ⟨[], [], by simp [cut]⟩
  | cons line lines ih =>
    cases hline : heading line with
    | some h => exact ⟨[], _, by simp only [cut, hline, List.append_nil]; rfl⟩
    | none =>
      obtain ⟨extra, rest, hcut⟩ := ih stack { o with body := o.body ++ [line] }
      exact ⟨line :: extra, rest, by simp [cut, hline, hcut]⟩

/-- A line that is a heading for one only tells the two apart. -/
theorem cut_ne (stack : List Heading) (current : Option Outline) {line : Text} (lines : List Text)
    {h : Heading} (hline : heading line = some h) (hline' : heading' line = none)
    (hink : strip line ≠ []) :
    cut heading stack current (line :: lines) ≠ cut heading' stack current (line :: lines) := by
  intro heq
  cases current with
  | none =>
    simp only [cut, hline, hline', hink, if_false, Option.toList_none, List.nil_append] at heq
    obtain ⟨extra, rest, hcut⟩ := cut_some heading (pushHeading stack h)
      ⟨some h.level, some h.title, (pushHeading stack h).map Heading.title, []⟩ lines
    obtain ⟨extra', rest', hcut'⟩ := cut_some heading' stack ⟨none, none, [], [line]⟩
      lines
    rw [hcut, hcut'] at heq
    simp at heq
  | some o =>
    simp only [cut, hline, hline', Option.toList_some, List.singleton_append] at heq
    obtain ⟨extra, rest, hcut⟩ := cut_some heading' stack
      { o with body := o.body ++ [line] } lines
    rw [hcut] at heq
    have hbody := congrArg Outline.body (List.cons.inj heq).1
    simp at hbody

/-- **The sections are the same only if the patterns agree on every line.** -/
theorem cut_eq_iff (stack : List Heading) (current : Option Outline) {lines : List Text}
    (hink : ∀ line ∈ lines, ∀ h, heading line = some h → strip line ≠ [])
    (hink' : ∀ line ∈ lines, ∀ h, heading' line = some h → strip line ≠ []) :
    cut heading stack current lines = cut heading' stack current lines ↔
      ∀ line ∈ lines, heading line = heading' line := by
  induction lines generalizing stack current with
  | nil => simp [cut]
  | cons line lines ih =>
    rw [List.forall_mem_cons] at hink hink' ⊢
    have hrest := fun stack current => ih stack current hink.2 hink'.2
    cases hline : heading line with
    | none =>
      cases hline' : heading' line with
      | none =>
        cases current with
        | some o => simpa [cut, hline, hline'] using hrest stack _
        | none =>
          by_cases hblank : strip line = []
          · simpa [cut, hline, hline', hblank] using hrest stack none
          · simpa [cut, hline, hline', hblank] using hrest stack _
      | some h' =>
        have hne := cut_ne stack current lines hline' hline (hink'.1 h' hline')
        simp [hne.symm]
    | some h =>
      cases hline' : heading' line with
      | none =>
        have hne := cut_ne stack current lines hline hline' (hink.1 h hline)
        simp [hne]
      | some h' =>
        constructor
        · intro heq
          simp only [cut, hline, hline', List.append_cancel_left_eq] at heq
          have hsame : h = h' := by
            obtain ⟨extra, rest, hcut⟩ := cut_some heading (pushHeading stack h)
              ⟨some h.level, some h.title, (pushHeading stack h).map Heading.title, []⟩ lines
            obtain ⟨extra', rest', hcut'⟩ := cut_some heading' (pushHeading stack h')
              ⟨some h'.level, some h'.title, (pushHeading stack h').map Heading.title, []⟩ lines
            rw [hcut, hcut'] at heq
            obtain ⟨level, title⟩ := h
            obtain ⟨level', title'⟩ := h'
            simp only [List.cons.injEq, Outline.mk.injEq, Option.some.injEq] at heq
            rw [heq.1.1, heq.1.2.1]
          subst hsame
          exact ⟨rfl, (hrest _ _).mp heq⟩
        · rintro ⟨hsame, hlines⟩
          obtain rfl := Option.some.inj hsame
          simp only [cut, hline, hline', List.append_cancel_left_eq]
          exact (hrest _ _).mpr hlines

theorem strip_ne_nil_of_mem {line : Text} {c : Char} (hc : c ∈ line) (hink : isSpace c = false) :
    strip line ≠ [] := by
  intro h
  have hspace := ink_eq_nil.mp (strip_eq_nil.mp h) c hc
  rw [hink] at hspace
  cases hspace

/-- There is a mark in a heading. -/
theorem strip_ne_nil_of_readHeading {most : Nat} {gap : Char → Bool}
    (hspace : ∀ c, gap c = true → isSpace c = true) {line : Text} (hline : '\n' ∉ line)
    {h : Heading} (hheading : readHeading most gap line = some h) : strip line ≠ [] := by
  obtain ⟨indent, tail, rfl, -, hatx, -⟩ := (readHeading_eq_some hspace hline).mp hheading
  apply strip_ne_nil_of_mem (c := '#') _ (by decide)
  have hpos := hatx.level_pos
  have hmark : '#' ∈ List.replicate h.level '#' := List.mem_replicate.mpr ⟨by omega, rfl⟩
  exact List.mem_append_right _ (List.mem_append_left _ hmark)

theorem not_mem_newline {text line : Text} (h : line ∈ splitlines text) : '\n' ∉ line := by
  intro hc
  exact absurd (not_isLineBreak_of_mem h hc) (by decide)

theorem outline_extractSections (text : Text) :
    (extractSections text).map (Section.outline (splitlines text)) =
      cut processorHeading [] none (splitlines text) :=
  outline_scanSections [] (splitlines text) [] none (by simp)

theorem outline_parseSections (lines : List Text) :
    (parseSections lines).map (Section.outline lines) = cut chunkerHeading [] none lines :=
  outline_scanSections [] lines [] none (by simp)

/-- **The two components find the same sections** of a normalised text, by level, title, path and
body, exactly when none of its lines is a heading for one of them only. -/
theorem sections_agree_iff (text : Text) :
    (extractSections (normalizeText text)).map
        (Section.outline (splitlines (normalizeText text))) =
      (parseSections (splitlines (normalizeText text))).map
        (Section.outline (splitlines (normalizeText text))) ↔
    ∀ line ∈ splitlines (normalizeText text), ¬ IndentedHeading line ∧ ¬ WideHeading line := by
  rw [outline_extractSections, outline_parseSections, cut_eq_iff]
  · apply forall_congr'
    intro line
    apply imp_congr_right
    intro hline
    exact heading_eq_iff (not_mem_newline hline)
  · intro line hline h hheading
    exact strip_ne_nil_of_readHeading (fun _ => isSpace_of_isBlank) (not_mem_newline hline) hheading
  · intro line hline h hheading
    rw [chunkerHeading_eq_readHeading] at hheading
    exact strip_ne_nil_of_readHeading (fun _ h => h) (not_mem_newline hline) hheading

/-- An ideographic space after the mark: text for the processor, a heading for the chunker. -/
theorem wide_heading_divides :
    (extractSections (normalizeText "#　标题".toList)).map
        (Section.outline (splitlines (normalizeText "#　标题".toList))) ≠
      (parseSections (splitlines (normalizeText "#　标题".toList))).map
        (Section.outline (splitlines (normalizeText "#　标题".toList))) := by
  decide +kernel

end DocFlow.Markdown
