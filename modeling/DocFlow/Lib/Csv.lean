import DocFlow.Lib.Text

/-!
# The csv reader and writer

The reader is a state machine over the characters of the lines it is given, with one more step at the
end of each line (`Parser.step`), as in the C module of Python; no dialect here has an escape
character.  The writer quotes a field when it has to.  A NUL is a character like any other, which it is
since Python 3.11; the reader of Python 3.10 refuses a line with one.

* `length_le_of_mem_readRows`: no field is longer than the limit.
* `readText_writeRows`: what was written is read back, when no field has a carriage return or is longer
  than the limit.
-/

namespace DocFlow.Csv

open Text

structure Dialect where
  delimiter : Char
  quotechar : Char
  doublequote : Bool
  skipinitialspace : Bool
  strict : Bool
deriving DecidableEq, Repr

def excel : Dialect where
  delimiter := ','
  quotechar := '"'
  doublequote := true
  skipinitialspace := false
  strict := false

/-- `csv.field_size_limit()`. -/
def fieldLimit : Nat := 131072

inductive CsvError
  | fieldLargerThanLimit
  | newlineInUnquotedField
  | expectedAfter (delimiter quotechar : Char)
  | unexpectedEndOfData
deriving DecidableEq, Repr

/-! ## The reader -/

inductive ParseState
  | startRecord
  | startField
  | inField
  | inQuotedField
  | quoteInQuotedField
  | eatCrnl
deriving DecidableEq, Repr

structure Parser where
  state : ParseState
  fields : List Text
  field : Text
deriving DecidableEq, Repr

/-- `parse_reset`. -/
def Parser.reset : Parser := ⟨.startRecord, [], []⟩

/-- `parse_save_field`, and the state behind it. -/
def Parser.saveField (p : Parser) (state : ParseState) : Parser := ⟨state, p.fields ++ [p.field], []⟩

/-- `parse_add_char`, and the state behind it. -/
def Parser.addChar (p : Parser) (c : Char) (state : ParseState) : Except CsvError Parser :=
  if fieldLimit ≤ p.field.length then .error .fieldLargerThanLimit
  else .ok { p with state := state, field := p.field ++ [c] }

/-- The end of a line, in a field that is not quoted: `none` is the end behind the last character. -/
def isEnd (c : Option Char) : Bool := c = none || c = some '\n' || c = some '\r'

/-- The state behind the end of a record. -/
def afterEnd (c : Option Char) : ParseState := if c = none then .startRecord else .eatCrnl

/-- A character where a field may start. -/
def Parser.stepField (d : Dialect) (p : Parser) (c : Option Char) : Except CsvError Parser :=
  match c with
  | none => .ok (p.saveField .startRecord)
  | some ch =>
    if isEnd c = true then .ok (p.saveField .eatCrnl)
    else if ch = d.quotechar then .ok { p with state := .inQuotedField }
    else if ch = ' ' ∧ d.skipinitialspace = true then .ok { p with state := .startField }
    else if ch = d.delimiter then .ok (p.saveField .startField)
    else p.addChar ch .inField

/-- `parse_process_char`. -/
def Parser.step (d : Dialect) (p : Parser) (c : Option Char) : Except CsvError Parser :=
  match p.state with
  | .startRecord =>
    if c = none then .ok p
    else if isEnd c = true then .ok { p with state := .eatCrnl }
    else p.stepField d c
  | .startField => p.stepField d c
  | .inField =>
    if isEnd c = true then .ok (p.saveField (afterEnd c))
    else if c = some d.delimiter then .ok (p.saveField .startField)
    else p.addChar (c.getD ' ') .inField
  | .inQuotedField =>
    match c with
    | none => .ok p
    | some ch =>
      if ch = d.quotechar then
        .ok { p with state := if d.doublequote then .quoteInQuotedField else .inField }
      else p.addChar ch .inQuotedField
  | .quoteInQuotedField =>
    if c = some d.quotechar then p.addChar d.quotechar .inQuotedField
    else if c = some d.delimiter then .ok (p.saveField .startField)
    else if isEnd c = true then .ok (p.saveField (afterEnd c))
    else if d.strict = true then .error (.expectedAfter d.delimiter d.quotechar)
    else p.addChar (c.getD ' ') .inField
  | .eatCrnl =>
    if c = none then .ok { p with state := .startRecord }
    else if isEnd c = true then .ok p
    else .error .newlineInUnquotedField

/-- The characters of a line, and its end. -/
def Parser.line (d : Dialect) (p : Parser) : Text → Except CsvError Parser
  | [] => p.step d none
  | c :: cs => do
    let p ← p.step d (some c)
    p.line d cs

/-- What ends a stream before its end. -/
inductive StreamError
  | undecodable
  | os (detail : String)
deriving DecidableEq, Repr

/-- A text file as it is read, line by line, up to its end or to an error. -/
structure TextStream where
  lines : List Text
  failure : Option StreamError
deriving DecidableEq, Repr

inductive ReadError
  | csv (e : CsvError)
  | stream (e : StreamError)
deriving DecidableEq, Repr

/-- A row, and the lines that have been read with it (`reader.line_num`). -/
structure Record where
  fields : List Text
  lineNum : Nat
deriving DecidableEq, Repr

/-- The rows that a reader gives, and the error that comes behind them. -/
structure Records where
  rows : List Record
  failure : Option (ReadError × Nat)
deriving DecidableEq, Repr

def Records.cons (row : Record) (records : Records) : Records :=
  { records with rows := row :: records.rows }

/-- What is read when the lines are at their end. -/
def Parser.atEnd (d : Dialect) (p : Parser) (lineNum : Nat) (failure : Option StreamError) :
    Records :=
  match failure with
  | some e => ⟨[], some (.stream e, lineNum)⟩
  | none =>
    if p.field ≠ [] ∨ p.state = .inQuotedField then
      if d.strict = true then ⟨[], some (.csv .unexpectedEndOfData, lineNum)⟩
      else ⟨[⟨(p.saveField p.state).fields, lineNum⟩], none⟩
    else ⟨[], none⟩

/-- `csv.reader`, from a parser that may be inside of a row. -/
def readRows (d : Dialect) (failure : Option StreamError) (lineNum : Nat) (p : Parser) :
    List Text → Records
  | [] => p.atEnd d lineNum failure
  | line :: lines =>
    match p.line d line with
    | .error e => ⟨[], some (.csv e, lineNum + 1)⟩
    | .ok p =>
      if p.state = .startRecord then
        .cons ⟨p.fields, lineNum + 1⟩ (readRows d failure (lineNum + 1) .reset lines)
      else readRows d failure (lineNum + 1) p lines

/-- `csv.reader(stream, dialect)`. -/
def reader (d : Dialect) (stream : TextStream) : Records :=
  readRows d stream.failure 0 .reset stream.lines

/-! ## The writer -/

/-- The characters for which a field is quoted; the line terminator is a newline. -/
def isSpecial (d : Dialect) (c : Char) : Bool := c = d.delimiter || c = d.quotechar || c = '\n'

/-- The quotation marks of a field, twice each. -/
def double (d : Dialect) (field : Text) : Text :=
  field.flatMap fun c => if c = d.quotechar then [c, c] else [c]

def quoted (d : Dialect) (field : Text) : Text := d.quotechar :: (double d field ++ [d.quotechar])

/-- A field with `QUOTE_MINIMAL`. -/
def writeField (d : Dialect) (field : Text) : Text :=
  if field.any (isSpecial d) = true then quoted d field else field

/-- The fields, with a delimiter between them, and the line terminator. -/
def writeFields (d : Dialect) : List Text → Text
  | [] => ['\n']
  | [field] => writeField d field ++ ['\n']
  | field :: fields => writeField d field ++ d.delimiter :: writeFields d fields

/-- `writer.writerow(row)`; a single empty field is quoted. -/
def writeRow (d : Dialect) (row : List Text) : Text :=
  if row = [[]] then [d.quotechar, d.quotechar, '\n'] else writeFields d row

def writeRows (d : Dialect) (rows : List (List Text)) : Text := rows.flatMap (writeRow d)

/-! ## Lines with their ends -/

/-- The lines of a text that was opened with `newline=""`: each keeps its line end. -/
def linesOf : Text → List Text
  | [] => []
  | c :: s =>
    if c = '\n' ∨ (c = '\r' ∧ s.head? ≠ some '\n') then [c] :: linesOf s else consHead c (linesOf s)

example : linesOf "a\r\nb\rc\n\nd".toList =
    ["a\r\n".toList, "b\r".toList, "c\n".toList, ['\n'], ['d']] := by
  decide

theorem linesOf_ne_nil {s : Text} (h : s ≠ []) : linesOf s ≠ [] := by
  cases s with
  | nil => exact absurd rfl h
  | cons c s =>
    rw [linesOf]
    split
    · exact List.cons_ne_nil _ _
    · cases linesOf s with
      | nil => exact List.cons_ne_nil _ _
      | cons line lines => exact List.cons_ne_nil _ _

theorem linesOf_append {s : Text} (hs : Closed s) (t : Text) :
    linesOf (s ++ t) = linesOf s ++ linesOf t := by
  induction s with
  | nil => rfl
  | cons c s ih =>
    cases s with
    | nil =>
      rw [hs.eq_newline]
      simp [linesOf]
    | cons d s =>
      have htail := ih hs.tail
      rw [List.cons_append, linesOf, linesOf, htail]
      have hhead : (d :: s ++ t).head? = (d :: s).head? := rfl
      by_cases hend : c = '\n' ∨ c = '\r' ∧ (d :: s).head? ≠ some '\n'
      · rw [if_pos (hhead ▸ hend), if_pos hend, List.cons_append]
      · rw [if_neg (hhead ▸ hend), if_neg hend]
        cases hlines : linesOf (d :: s) with
        | nil => exact absurd hlines (linesOf_ne_nil (List.cons_ne_nil d s))
        | cons line lines => rfl

/-! ## The limit -/

/-- No field is longer than the limit, the one that is being read included. -/
structure Parser.Limited (p : Parser) : Prop where
  field : p.field.length ≤ fieldLimit
  fields : ∀ f ∈ p.fields, f.length ≤ fieldLimit

theorem limited_reset : Parser.reset.Limited where
  field := Nat.zero_le _
  fields := by simp [Parser.reset]

theorem Parser.Limited.saveField {p : Parser} (h : p.Limited) (state : ParseState) :
    (p.saveField state).Limited where
  field := Nat.zero_le _
  fields := by
    intro f hf
    obtain hf | hf := List.mem_append.mp hf
    · exact h.fields f hf
    · rw [List.mem_singleton.mp hf]
      exact h.field

theorem Parser.Limited.withState {p : Parser} (h : p.Limited) (state : ParseState) :
    ({ p with state := state } : Parser).Limited := ⟨h.field, h.fields⟩

theorem Parser.Limited.addChar {p p' : Parser} (h : p.Limited) {c : Char} {state : ParseState}
    (hadd : p.addChar c state = .ok p') : p'.Limited := by
  unfold Parser.addChar at hadd
  split at hadd
  · cases hadd
  · next hlt =>
    cases hadd
    refine ⟨?_, h.fields⟩
    show (p.field ++ [c]).length ≤ fieldLimit
    rw [List.length_append, List.length_singleton]
    omega

theorem Parser.Limited.stepField {d : Dialect} {p p' : Parser} (h : p.Limited) {c : Option Char}
    (hstep : p.stepField d c = .ok p') : p'.Limited := by
  unfold Parser.stepField at hstep
  repeat' split at hstep
  all_goals first
    | exact h.addChar hstep
    | (cases hstep; first | exact h.saveField _ | exact h.withState _)

theorem Parser.Limited.step {d : Dialect} {p p' : Parser} (h : p.Limited) {c : Option Char}
    (hstep : p.step d c = .ok p') : p'.Limited := by
  unfold Parser.step at hstep
  repeat' split at hstep
  all_goals first
    | exact h.addChar hstep
    | exact h.stepField hstep
    | (cases hstep; done)
    | (cases hstep; first | exact h | exact h.saveField _ | exact h.withState _)

theorem Parser.Limited.line {d : Dialect} {p p' : Parser} (h : p.Limited) {line : Text}
    (hline : p.line d line = .ok p') : p'.Limited := by
  induction line generalizing p with
  | nil => exact h.step hline
  | cons c cs ih =>
    rw [Parser.line] at hline
    cases hstep : p.step d (some c) with
    | error e =>
      rw [hstep] at hline
      cases hline
    | ok q =>
      rw [hstep] at hline
      exact ih (h.step hstep) hline

theorem Parser.Limited.atEnd {d : Dialect} {p : Parser} (h : p.Limited) {lineNum : Nat}
    {failure : Option StreamError} {row : Record} (hrow : row ∈ (p.atEnd d lineNum failure).rows)
    {f : Text} (hf : f ∈ row.fields) : f.length ≤ fieldLimit := by
  unfold Parser.atEnd at hrow
  repeat' split at hrow
  all_goals first
    | cases hrow; done
    | (rw [List.mem_singleton.mp hrow] at hf; exact (h.saveField p.state).fields f hf)

/-- **No field of a row that is read is longer than the limit.** -/
theorem length_le_of_mem_readRows {d : Dialect} {failure : Option StreamError} {lines : List Text}
    {lineNum : Nat} {p : Parser} (h : p.Limited) {row : Record}
    (hrow : row ∈ (readRows d failure lineNum p lines).rows) {f : Text} (hf : f ∈ row.fields) :
    f.length ≤ fieldLimit := by
  induction lines generalizing lineNum p with
  | nil => exact h.atEnd hrow hf
  | cons line lines ih =>
    rw [readRows] at hrow
    cases hline : p.line d line with
    | error e =>
      rw [hline] at hrow
      cases hrow
    | ok q =>
      have hq := h.line hline
      simp only [hline] at hrow
      by_cases hstart : q.state = .startRecord
      · rw [if_pos hstart] at hrow
        obtain rfl | hrow := List.mem_cons.mp hrow
        · exact hq.fields f hf
        · exact ih limited_reset hrow
      · rw [if_neg hstart] at hrow
        exact ih hq hrow

/-! ## Reading what was written -/

/-- The rows, and the error behind them, without the numbers of the lines. -/
def Records.content (records : Records) : List (List Text) × Option ReadError :=
  (records.rows.map Record.fields, records.failure.map Prod.fst)

/-- The numbers of the lines do not change what is read. -/
theorem content_readRows (d : Dialect) (failure : Option StreamError) (lines : List Text)
    (m n : Nat) (p : Parser) :
    (readRows d failure m p lines).content = (readRows d failure n p lines).content := by
  induction lines generalizing m n p with
  | nil =>
    simp only [readRows, Parser.atEnd, Records.content]
    repeat' split
    all_goals rfl
  | cons line lines ih =>
    simp only [readRows]
    cases p.line d line with
    | error e => rfl
    | ok q =>
      by_cases hstart : q.state = .startRecord
      · have h := ih (m + 1) (n + 1) .reset
        simp only [Records.content, Prod.mk.injEq] at h
        simp only [if_pos hstart, Records.content, Records.cons, List.map_cons, h.1, h.2]
      · simp only [if_neg hstart]
        exact ih (m + 1) (n + 1) q

/-- What the reader makes of a text, from a parser that may be inside of a row. -/
def readText (d : Dialect) (p : Parser) (s : Text) : List (List Text) × Option ReadError :=
  (readRows d none 0 p (linesOf s)).content

/-- A character that ends no line. -/
theorem readText_cons {d : Dialect} {p p' : Parser} {c : Char} (hn : c ≠ '\n') (hr : c ≠ '\r')
    (hstep : p.step d (some c) = .ok p') {s : Text} (hs : s ≠ []) :
    readText d p (c :: s) = readText d p' s := by
  have hlines : linesOf (c :: s) = consHead c (linesOf s) := by
    rw [linesOf, if_neg]
    simp [hn, hr]
  rw [readText, hlines, readText]
  cases hl : linesOf s with
  | nil => exact absurd hl (linesOf_ne_nil hs)
  | cons line lines =>
    have hline : p.line d (c :: line) = p'.line d line := by
      rw [Parser.line, hstep]
      rfl
    simp only [consHead, readRows, hline]

theorem linesOf_newline (s : Text) : linesOf ('\n' :: s) = ['\n'] :: linesOf s := by
  simp [linesOf]

/-- A newline inside of a row. -/
theorem readText_newline {d : Dialect} {p p' : Parser} (hline : p.line d ['\n'] = .ok p')
    (hstate : p'.state ≠ .startRecord) (s : Text) :
    readText d p ('\n' :: s) = readText d p' s := by
  rw [readText, linesOf_newline, readRows]
  simp only [hline, if_neg hstate]
  exact content_readRows d none _ _ _ _

/-- A newline that ends a row. -/
theorem readText_end {d : Dialect} {p p' : Parser} (hline : p.line d ['\n'] = .ok p')
    (hstate : p'.state = .startRecord) (s : Text) :
    readText d p ('\n' :: s) =
      (p'.fields :: (readText d .reset s).1, (readText d .reset s).2) := by
  rw [readText, linesOf_newline, readRows]
  simp only [hline, if_pos hstate, readText]
  rw [← content_readRows d none (linesOf s) (0 + 1) 0]
  rfl

/-- The dialects that the writer writes. -/
structure Dialect.Plain (d : Dialect) : Prop where
  doublequote : d.doublequote = true
  skipinitialspace : d.skipinitialspace = false
  delimiter_ne : d.delimiter ≠ d.quotechar
  delimiter_end : isEnd (some d.delimiter) = false
  quotechar_end : isEnd (some d.quotechar) = false

theorem plain_excel : excel.Plain where
  doublequote := rfl
  skipinitialspace := rfl
  delimiter_ne := by decide
  delimiter_end := by decide
  quotechar_end := by decide

/-- A field that is read back as it was written. -/
structure Writable (field : Text) : Prop where
  no_return : '\r' ∉ field
  length_le : field.length ≤ fieldLimit

theorem Dialect.Plain.delimiter_ne_newline {d : Dialect} (hd : d.Plain) :
    d.delimiter ≠ '\n' ∧ d.delimiter ≠ '\r' := by
  have h := hd.delimiter_end
  simp only [isEnd, Bool.or_eq_false_iff, decide_eq_false_iff_not, Option.some.injEq] at h
  exact ⟨h.1.2, h.2⟩

theorem Dialect.Plain.quotechar_ne_newline {d : Dialect} (hd : d.Plain) :
    d.quotechar ≠ '\n' ∧ d.quotechar ≠ '\r' := by
  have h := hd.quotechar_end
  simp only [isEnd, Bool.or_eq_false_iff, decide_eq_false_iff_not, Option.some.injEq] at h
  exact ⟨h.1.2, h.2⟩

/-- The inside of a quoted field, from any place in it on. -/
theorem readText_double {d : Dialect} (hd : d.Plain) {s : Text} (hreturn : '\r' ∉ s)
    (fields : List Text) (read : Text) (hlength : (read ++ s).length ≤ fieldLimit) {rest : Text} (hrest : rest ≠ []) :
    readText d ⟨.inQuotedField, fields, read⟩ (double d s ++ d.quotechar :: rest) =
      readText d ⟨.quoteInQuotedField, fields, read ++ s⟩ rest := by
  have hq := hd.quotechar_ne_newline
  -- the step at a quotation mark
  have hquote : ∀ read : Text, (⟨.inQuotedField, fields, read⟩ : Parser).step d (some d.quotechar) =
      .ok ⟨.quoteInQuotedField, fields, read⟩ := by
    intro read
    simp [Parser.step, hd.doublequote]
  induction s generalizing read with
  | nil =>
    rw [List.append_nil]
    exact readText_cons hq.1 hq.2 (hquote read) hrest
  | cons c s ih =>
    have hlt : ¬ fieldLimit ≤ read.length := by
      rw [List.length_append, List.length_cons] at hlength
      omega
    have htail : readText d ⟨.inQuotedField, fields, read ++ [c]⟩
        (double d s ++ d.quotechar :: rest) =
        readText d ⟨.quoteInQuotedField, fields, read ++ c :: s⟩ rest := by
      rw [ih (fun h => hreturn (List.mem_cons_of_mem _ h)) (read ++ [c]) (by simpa using hlength),
        List.append_assoc]
      rfl
    have hr : c ≠ '\r' := fun h => hreturn (h ▸ List.mem_cons_self)
    rw [← htail]
    by_cases hc : c = d.quotechar
    · subst hc
      have hdouble : double d (d.quotechar :: s) ++ d.quotechar :: rest =
          d.quotechar :: d.quotechar :: (double d s ++ d.quotechar :: rest) := by
        simp [double]
      have hadd : (⟨.quoteInQuotedField, fields, read⟩ : Parser).step d (some d.quotechar) =
          .ok ⟨.inQuotedField, fields, read ++ [d.quotechar]⟩ := by
        simp [Parser.step, Parser.addChar, hlt]
      rw [hdouble, readText_cons hq.1 hq.2 (hquote read) (List.cons_ne_nil _ _),
        readText_cons hq.1 hq.2 hadd (by simp)]
    · have hdouble : double d (c :: s) ++ d.quotechar :: rest =
          c :: (double d s ++ d.quotechar :: rest) := by
        simp [double, hc]
      have hadd : (⟨.inQuotedField, fields, read⟩ : Parser).step d (some c) =
          .ok ⟨.inQuotedField, fields, read ++ [c]⟩ := by
        simp [Parser.step, Parser.addChar, hlt, hc]
      rw [hdouble]
      by_cases hn : c = '\n'
      · subst hn
        refine readText_newline ?_ (by simp) _
        simp only [Parser.line, hadd]
        rfl
      · exact readText_cons hn hr hadd (by simp)

/-- The inside of a field that is not quoted. -/
theorem readText_plain {d : Dialect} {s : Text} (hreturn : '\r' ∉ s)
    (hspecial : s.any (isSpecial d) = false) (fields : List Text) (read : Text) (hlength : (read ++ s).length ≤ fieldLimit) {rest : Text}
    (hrest : rest ≠ []) :
    readText d ⟨.inField, fields, read⟩ (s ++ rest) =
      readText d ⟨.inField, fields, read ++ s⟩ rest := by
  induction s generalizing read with
  | nil => rw [List.append_nil, List.nil_append]
  | cons c s ih =>
    have hlt : ¬ fieldLimit ≤ read.length := by
      rw [List.length_append, List.length_cons] at hlength
      omega
    have hr : c ≠ '\r' := fun h => hreturn (h ▸ List.mem_cons_self)
    simp only [List.any_cons, Bool.or_eq_false_iff, isSpecial, decide_eq_false_iff_not] at hspecial
    obtain ⟨⟨⟨hdelimiter, -⟩, hn⟩, hspecial⟩ := hspecial
    have hadd : (⟨.inField, fields, read⟩ : Parser).step d (some c) =
        .ok ⟨.inField, fields, read ++ [c]⟩ := by
      simp [Parser.step, isEnd, hn, hr, hdelimiter, Parser.addChar, hlt]
    have htail := ih (fun h => hreturn (List.mem_cons_of_mem _ h)) hspecial (read ++ [c])
      (by simpa using hlength)
    rw [List.cons_append, readText_cons hn hr hadd (by simp [hrest]), htail, List.append_assoc]
    rfl

/-- What stands behind a field that was read: its delimiter or the newline. -/
theorem step_behind {d : Dialect} (hd : d.Plain) {state : ParseState}
    (hstate : state = .startField ∨ state = .inField ∨ state = .quoteInQuotedField)
    (fields : List Text) (field : Text) :
    (⟨state, fields, field⟩ : Parser).step d (some d.delimiter) =
        .ok ⟨.startField, fields ++ [field], []⟩ ∧
      (⟨state, fields, field⟩ : Parser).line d ['\n'] =
        .ok ⟨.startRecord, fields ++ [field], []⟩ := by
  have hdn := hd.delimiter_ne_newline
  have hqn := hd.quotechar_ne_newline
  have hdq := hd.delimiter_ne
  obtain rfl | rfl | rfl := hstate
  · refine ⟨?_, rfl⟩
    simp [Parser.step, Parser.stepField, hd.delimiter_end, hd.skipinitialspace, hdq,
      Parser.saveField]
  · refine ⟨?_, rfl⟩
    simp [Parser.step, isEnd, hdn, Parser.saveField]
  · refine ⟨?_, ?_⟩
    · simp [Parser.step, hdq, Parser.saveField]
    · simp [Parser.line, Parser.step, isEnd, hqn.1.symm, hdn.1.symm, Parser.saveField, afterEnd,
        Bind.bind, Except.bind]

/-- A field that was written, up to what stands behind it. -/
theorem readText_writeField {d : Dialect} (hd : d.Plain) {s : Text} (hs : Writable s)
    (fields : List Text) {rest : Text} (hrest : rest ≠ []) :
    ∃ state, (state = .startField ∨ state = .inField ∨ state = .quoteInQuotedField) ∧
      readText d ⟨.startField, fields, []⟩ (writeField d s ++ rest) =
        readText d ⟨state, fields, s⟩ rest := by
  have hq := hd.quotechar_ne_newline
  by_cases hspecial : s.any (isSpecial d) = true
  · have hquote : (⟨.startField, fields, []⟩ : Parser).step d (some d.quotechar) =
        .ok ⟨.inQuotedField, fields, []⟩ := by
      simp [Parser.step, Parser.stepField, hd.quotechar_end]
    have hwritten : writeField d s ++ rest =
        d.quotechar :: (double d s ++ d.quotechar :: rest) := by
      simp [writeField, hspecial, quoted]
    refine ⟨.quoteInQuotedField, .inr (.inr rfl), ?_⟩
    rw [hwritten, readText_cons hq.1 hq.2 hquote (by simp)]
    exact readText_double hd hs.no_return fields [] hs.length_le hrest
  · rw [writeField, if_neg hspecial]
    cases s with
    | nil => exact ⟨.startField, .inl rfl, rfl⟩
    | cons c s =>
      rw [Bool.not_eq_true] at hspecial
      have hr : c ≠ '\r' := fun h => hs.no_return (h ▸ List.mem_cons_self)
      have hc := hspecial
      simp only [List.any_cons, Bool.or_eq_false_iff, isSpecial, decide_eq_false_iff_not] at hc
      have hadd : (⟨.startField, fields, []⟩ : Parser).step d (some c) =
          .ok ⟨.inField, fields, [c]⟩ := by
        simp [Parser.step, Parser.stepField, isEnd, hc.1, hr, hd.skipinitialspace, Parser.addChar,
          fieldLimit]
      refine ⟨.inField, .inr (.inl rfl), ?_⟩
      rw [List.cons_append, readText_cons hc.1.2 hr hadd (by simp [hrest])]
      refine readText_plain (fun h => hs.no_return (List.mem_cons_of_mem _ h)) ?_ fields [c]
        hs.length_le hrest
      simpa [isSpecial] using hc.2

/-- The fields of a row, from the start of any of them. -/
theorem readText_writeFields {d : Dialect} (hd : d.Plain) {row : List Text} (hrow : row ≠ [])
    (hwritable : ∀ field ∈ row, Writable field) (fields : List Text) (rest : Text) :
    readText d ⟨.startField, fields, []⟩ (writeFields d row ++ rest) =
      ((fields ++ row) :: (readText d .reset rest).1, (readText d .reset rest).2) := by
  induction row generalizing fields with
  | nil => exact absurd rfl hrow
  | cons field row ih =>
    have hfield := hwritable field List.mem_cons_self
    cases row with
    | nil =>
      obtain ⟨state, hstate, hread⟩ := readText_writeField hd hfield fields
        (List.cons_ne_nil '\n' rest)
      rw [writeFields, List.append_assoc, List.singleton_append, hread,
        readText_end (step_behind hd hstate fields field).2 rfl]
    | cons next row =>
      have hdn := hd.delimiter_ne_newline
      obtain ⟨state, hstate, hread⟩ := readText_writeField hd hfield fields
        (List.cons_ne_nil d.delimiter (writeFields d (next :: row) ++ rest))
      have hne : writeFields d (next :: row) ++ rest ≠ [] := by
        cases row <;> simp [writeFields]
      rw [writeFields, List.append_assoc, List.cons_append, hread,
        readText_cons hdn.1 hdn.2 (step_behind hd hstate fields field).1 hne,
        ih (List.cons_ne_nil _ _) (fun f hf => hwritable f (List.mem_cons_of_mem _ hf)),
        List.append_assoc]
      rfl
      intro h
      cases h

/-- At its first character a row is read as its first field is. -/
theorem readText_start {d : Dialect} {c : Char} (hn : c ≠ '\n') (hr : c ≠ '\r') (s : Text) :
    readText d .reset (c :: s) = readText d ⟨.startField, [], []⟩ (c :: s) := by
  have hstep : Parser.reset.step d (some c) =
      (⟨.startField, [], []⟩ : Parser).step d (some c) := by
    simp [Parser.step, Parser.reset, isEnd, hn, hr, Parser.stepField, Parser.saveField,
      Parser.addChar]
  have hlines : linesOf (c :: s) = consHead c (linesOf s) := by
    rw [linesOf, if_neg]
    simp [hn, hr]
  rw [readText, readText, hlines]
  cases linesOf s with
  | nil => simp only [consHead, readRows, Parser.line, hstep]
  | cons line lines => simp only [consHead, readRows, Parser.line, hstep]

/-- The first character of a row ends no line. -/
theorem head_writeRow {d : Dialect} (hd : d.Plain) {row : List Text} (hrow : row ≠ [])
    (hwritable : ∀ field ∈ row, Writable field) :
    ∃ c s, c ≠ '\n' ∧ c ≠ '\r' ∧ writeRow d row = c :: s := by
  have hq := hd.quotechar_ne_newline
  have hdn := hd.delimiter_ne_newline
  by_cases hsingle : row = [[]]
  · exact ⟨d.quotechar, _, hq.1, hq.2, by rw [writeRow, if_pos hsingle]⟩
  · rw [writeRow, if_neg hsingle]
    obtain ⟨field, row, rfl⟩ := List.exists_cons_of_ne_nil hrow
    have hfield := hwritable field List.mem_cons_self
    cases field with
    | nil =>
      obtain ⟨next, row, rfl⟩ := List.exists_cons_of_ne_nil (fun h : row = [] => hsingle (h ▸ rfl))
      exact ⟨d.delimiter, _, hdn.1, hdn.2, rfl⟩
    | cons c s =>
      -- the first field is written before anything else
      have hfirst : ∃ rest, writeFields d ((c :: s) :: row) = writeField d (c :: s) ++ rest := by
        cases row with
        | nil => exact ⟨_, rfl⟩
        | cons next row => exact ⟨_, rfl⟩
      obtain ⟨rest, hfirst⟩ := hfirst
      rw [hfirst]
      by_cases hspecial : (c :: s).any (isSpecial d) = true
      · exact ⟨d.quotechar, _, hq.1, hq.2, by rw [writeField, if_pos hspecial]; rfl⟩
      · refine ⟨c, s ++ rest, ?_, ?_, by rw [writeField, if_neg hspecial]; rfl⟩
        · rintro rfl
          simp [isSpecial] at hspecial
        · rintro rfl
          exact hfield.no_return List.mem_cons_self

theorem readText_writeRow {d : Dialect} (hd : d.Plain) {row : List Text} (hrow : row ≠ [])
    (hwritable : ∀ field ∈ row, Writable field) (rest : Text) :
    readText d .reset (writeRow d row ++ rest) =
      (row :: (readText d .reset rest).1, (readText d .reset rest).2) := by
  obtain ⟨c, s, hn, hr, hhead⟩ := head_writeRow hd hrow hwritable
  have hstart : readText d .reset (writeRow d row ++ rest) =
      readText d ⟨.startField, [], []⟩ (writeRow d row ++ rest) := by
    rw [hhead]
    exact readText_start hn hr _
  rw [hstart]
  by_cases hsingle : row = [[]]
  · -- the quotation marks of the single empty field
    have hq := hd.quotechar_ne_newline
    have hopen : (⟨.startField, [], []⟩ : Parser).step d (some d.quotechar) =
        .ok ⟨.inQuotedField, [], []⟩ := by
      simp [Parser.step, Parser.stepField, hd.quotechar_end]
    have hclose := readText_double hd (s := []) (by simp) [] [] (by simp)
      (List.cons_ne_nil '\n' rest)
    have hwritten : writeRow d row ++ rest = d.quotechar :: ([] ++ d.quotechar :: '\n' :: rest) := by
      rw [writeRow, if_pos hsingle]
      rfl
    rw [hwritten, readText_cons hq.1 hq.2 hopen (by simp)]
    refine hclose.trans ?_
    rw [readText_end (step_behind hd (.inr (.inr rfl)) [] _).2 rfl, hsingle]
    rfl
  · rw [writeRow, if_neg hsingle]
    exact readText_writeFields hd hrow hwritable [] rest

/-- **What was written is read back.** -/
theorem readText_writeRows {d : Dialect} (hd : d.Plain) {rows : List (List Text)}
    (hne : ∀ row ∈ rows, row ≠ []) (hwritable : ∀ row ∈ rows, ∀ field ∈ row, Writable field) :
    readText d .reset (writeRows d rows) = (rows, none) := by
  induction rows with
  | nil => rfl
  | cons row rows ih =>
    have htail := ih (fun r hr => hne r (List.mem_cons_of_mem _ hr))
      (fun r hr => hwritable r (List.mem_cons_of_mem _ hr))
    have hwritten : writeRows d (row :: rows) = writeRow d row ++ writeRows d rows := rfl
    rw [hwritten, readText_writeRow hd (hne row List.mem_cons_self)
      (hwritable row List.mem_cons_self), htail]

example : readText excel .reset (writeRows excel [["a".toList, "b,\"c\"\n".toList], [[]]]) =
    ([["a".toList, "b,\"c\"\n".toList], [[]]], none) := by
  decide

end DocFlow.Csv
