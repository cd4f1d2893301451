import DocFlow.Lib.Csv

/-!
# Cleaning a CSV file

`CsvProcessor.process`: the encoding and the dialect are guessed, the header is checked, the cells are
cleaned, blank rows are left out, and the rest is written in one format.  The guess of the dialect
(`csv.Sniffer`) and the decoders are code of Python's library; here their answers are arguments.

* `normalizeHeaders_eq_ok`, `cleanRows_eq_ok`: what has been checked of a header and of rows.
* `process_eq_ok`: the file that is written has the cleaned header and the rows that are not blank.
-/

namespace DocFlow.CsvProcessor

open PyString (isSpace)
open Text Csv

/-! ## Errors -/

inductive Encoding
  | utf8Sig
  | utf8
  | gb18030
deriving DecidableEq, Repr

def Encoding.name : Encoding → String
  | .utf8Sig => "utf-8-sig"
  | .utf8 => "utf-8"
  | .gb18030 => "gb18030"

inductive CsvProcessError
  | emptyFile
  | unknownEncoding
  | emptyHeader
  | emptyColumn (columnNumber : Nat)
  | duplicateHeader (header : Text)
  | fieldCount (recordNumber lineNum expected actual : Nat)
  | undecodable (encoding : Encoding)
  | recordTooLarge (lineNum : Nat)
  | malformed (lineNum : Nat) (e : CsvError)
  | os (detail : String)
deriving DecidableEq, Repr

/-- The text of an error of the `csv` module. -/
def csvErrorText : CsvError → String
  | .fieldLargerThanLimit => "field larger than field limit (131072)"
  | .newlineInUnquotedField =>
    "new-line character seen in unquoted field - do you need to open the file with newline=''?"
  | .expectedAfter delimiter quotechar =>
    "'" ++ delimiter.toString ++ "' expected after '" ++ quotechar.toString ++ "'"
  | .unexpectedEndOfData => "unexpected end of data"

def CsvProcessError.detail : CsvProcessError → String
  | .emptyFile => "CSV 文件为空"
  | .unknownEncoding => "无法识别 CSV 编码，已尝试: utf-8-sig, utf-8, gb18030"
  | .emptyHeader => "CSV 表头为空"
  | .emptyColumn n => s!"CSV 第 {n} 列表头为空"
  | .duplicateHeader header => "CSV 表头存在重复字段: " ++ String.ofList header
  | .fieldCount n lineNum expected actual =>
    s!"CSV 第 {n} 条数据记录字段数量错误" ++ s!"（物理行位置: {lineNum}），" ++
      s!"期望 {expected} 列，实际 {actual} 列"
  | .undecodable encoding =>
    "CSV 文件无法使用检测到的编码 " ++ encoding.name ++ " 完整解码"
  | .recordTooLarge lineNum => s!"CSV 单条记录超出安全限制（物理行位置: {lineNum}）"
  | .malformed lineNum e => s!"CSV 格式损坏（物理行位置: {lineNum}）: " ++ csvErrorText e
  | .os detail => "CSV 文件读写失败: " ++ detail

/-- The `except` clauses around the reading. -/
def CsvProcessError.ofReadError (encoding : Encoding) : ReadError × Nat → CsvProcessError
  | (.csv .fieldLargerThanLimit, lineNum) => .recordTooLarge lineNum
  | (.csv e, lineNum) => .malformed lineNum e
  | (.stream .undecodable, _) => .undecodable encoding
  | (.stream (.os detail), _) => .os detail

/-! ## The source file -/

/-- The source file, as the decoders of Python's library show it. -/
structure SourceFile where
  size : Nat
  /-- `sample.startswith(codecs.BOM_UTF8)` -/
  startsWithBom : Bool
  /-- the first 64 KiB, when they can be decoded -/
  decodeSample : Encoding → Option Text
  openWith : Encoding → TextStream

/-- `_detect_encoding`; without a mark at its start a file is not read as `utf-8-sig`. -/
def detectEncoding (file : SourceFile) : Except CsvProcessError Encoding :=
  if file.startsWithBom = true ∧ (file.decodeSample .utf8Sig).isSome = true then .ok .utf8Sig
  else if (file.decodeSample .utf8).isSome = true then .ok .utf8
  else if (file.decodeSample .gb18030).isSome = true then .ok .gb18030
  else .error .unknownEncoding

/-- `_detect_dialect`; `sniff` is `csv.Sniffer().sniff`. -/
def detectDialect (sniff : Text → Option Dialect) (sample : Text) : Dialect :=
  let normalizedSample := sample.filter fun c => c ≠ Char.ofNat 0
  let firstNonBlankLine :=
    ((splitlines normalizedSample).find? fun line => strip line ≠ []).getD []
  match sniff normalizedSample with
  | some dialect => dialect
  | none =>
    if firstNonBlankLine ≠ [] ∧ firstNonBlankLine ≠ normalizedSample then
      (sniff firstNonBlankLine).getD excel
    else excel

/-! ## Cells, header and rows -/

/-- `_clean_cell`. -/
def cleanCell (value : Text) : Text :=
  strip (replaceChar '\r' '\n'
    (replacePair '\r' '\n' '\n' (value.filter fun c => c ≠ Char.ofNat 0)))

/-- `re.sub(r"\s+", " ", s)`. -/
def collapse : Text → Text
  | [] => []
  | c :: s =>
    if isSpace c = true then
      if (s.head?.map isSpace).getD false = true then collapse s else ' ' :: collapse s
    else c :: collapse s

example : collapse " a\n\tb c".toList = " a b c".toList := by decide

def normalizeHeader (header : Text) : Text := collapse (cleanCell header)

/-- The loop of `_normalize_headers`. -/
def addHeaders (columnNumber : Nat) (seen : List Text) :
    List Text → Except CsvProcessError (List Text)
  | [] => .ok []
  | header :: headers =>
    if header = [] then .error (.emptyColumn columnNumber)
    else if header ∈ seen then .error (.duplicateHeader header)
    else do
      let rest ← addHeaders (columnNumber + 1) (header :: seen) headers
      return header :: rest

/-- `_normalize_headers`. -/
def normalizeHeaders (headers : List Text) : Except CsvProcessError (List Text) :=
  if headers = [] then .error .emptyHeader
  else
    let cleanedHeaders := headers.map normalizeHeader
    if ∀ header ∈ cleanedHeaders, header = [] then .error .emptyHeader
    else addHeaders 1 [] cleanedHeaders

/-- `_is_blank_row`. -/
def isBlankRow (row : List Text) : Bool := row.all fun cell => cell = []

/-- The loop over the rows: those that are kept, and the number of the others. -/
def cleanRows (columnCount recordNumber : Nat) :
    List Record → Except CsvProcessError (List (List Text) × Nat)
  | [] => .ok ([], 0)
  | row :: rows =>
    let cleanedRow := row.fields.map cleanCell
    if isBlankRow cleanedRow = true then do
      let (kept, blank) ← cleanRows columnCount (recordNumber + 1) rows
      return (kept, blank + 1)
    else if cleanedRow.length ≠ columnCount then
      .error (.fieldCount recordNumber row.lineNum columnCount cleanedRow.length)
    else do
      let (kept, blank) ← cleanRows columnCount (recordNumber + 1) rows
      return (cleanedRow :: kept, blank)

/-! ## The processor -/

structure CsvMetadata where
  sourceEncoding : Encoding
  sourceDelimiter : Char
  headers : List Text
  columnCount : Nat
  rowCount : Nat
  blankRowCount : Nat
deriving DecidableEq, Repr

/-- The text of the file that was written, and what is reported of it. -/
structure ProcessResult where
  cleaned : Text
  charCount : Nat
  lineCount : Nat
  metadata : CsvMetadata
deriving DecidableEq, Repr

/-- The rows that the source's reader gives, with the dialect that was detected. -/
def sourceRecords (sniff : Text → Option Dialect) (file : SourceFile) (encoding : Encoding) :
    Dialect × Records :=
  let dialect := detectDialect sniff ((file.decodeSample encoding).getD [])
  (dialect, reader { dialect with strict := true } (file.openWith encoding))

/-- `CsvProcessor.process`. -/
def process (sniff : Text → Option Dialect) (file : SourceFile) :
    Except CsvProcessError ProcessResult := do
  if file.size = 0 then throw .emptyFile
  let encoding ← detectEncoding file
  let (dialect, records) := sourceRecords sniff file encoding
  let endError := records.failure.map (CsvProcessError.ofReadError encoding)
  match records.rows with
  | [] => throw (endError.getD .emptyHeader)
  | header :: rows =>
    let headers ← normalizeHeaders header.fields
    let (kept, blank) ← cleanRows headers.length 1 rows
    match endError with
    | some e => throw e
    | none =>
      let cleaned := writeRows excel (headers :: kept)
      return {
        cleaned := cleaned
        charCount := cleaned.length
        lineCount := kept.length + 1
        metadata := {
          sourceEncoding := encoding
          sourceDelimiter := dialect.delimiter
          headers := headers
          columnCount := headers.length
          rowCount := kept.length
          blankRowCount := blank } }

/-- The rows that are kept, as they are written. -/
def keptRows (rows : List Record) : List (List Text) :=
  (rows.map fun row => row.fields.map cleanCell).filter fun row => !isBlankRow row

/-! ## Cleaned cells -/

/-- A cleaned cell is not longer than the cell, and has no carriage return. -/
theorem writable_cleanCell {value : Text} (h : value.length ≤ fieldLimit) :
    Writable (cleanCell value) where
  no_return := by
    intro hmem
    obtain ⟨c, -, heq⟩ := List.mem_map.mp (mem_of_mem_strip hmem)
    split at heq
    · exact absurd heq (by decide)
    · next hne => exact hne heq
  length_le := by
    have hstrip := length_strip_le (replaceChar '\r' '\n'
      (replacePair '\r' '\n' '\n' (value.filter fun c => c ≠ Char.ofNat 0)))
    have hreplace : (replaceChar '\r' '\n' (replacePair '\r' '\n' '\n'
        (value.filter fun c => c ≠ Char.ofNat 0))).length =
        (replacePair '\r' '\n' '\n' (value.filter fun c => c ≠ Char.ofNat 0)).length :=
      List.length_map ..
    have hpair := length_replacePair_le '\r' '\n' '\n' (value.filter fun c => c ≠ Char.ofNat 0)
    have hfilter := List.length_filter_le (fun c => decide (c ≠ Char.ofNat 0)) value
    rw [cleanCell]
    omega

theorem length_collapse_le (s : Text) : (collapse s).length ≤ s.length := by
  induction s with
  | nil => exact le_rfl
  | cons c s ih =>
    rw [collapse]
    repeat' split
    all_goals
      simp only [List.length_cons]
      omega

theorem mem_of_mem_collapse {s : Text} {c : Char} (h : c ∈ collapse s) : c = ' ' ∨ c ∈ s := by
  induction s with
  | nil => exact .inr h
  | cons d s ih =>
    rw [collapse] at h
    repeat' split at h
    · exact (ih h).imp_right (List.mem_cons_of_mem d)
    · obtain rfl | h := List.mem_cons.mp h
      · exact .inl rfl
      · exact (ih h).imp_right (List.mem_cons_of_mem d)
    · obtain rfl | h := List.mem_cons.mp h
      · exact .inr List.mem_cons_self
      · exact (ih h).imp_right (List.mem_cons_of_mem d)

theorem writable_normalizeHeader {header : Text} (h : header.length ≤ fieldLimit) :
    Writable (normalizeHeader header) where
  no_return := by
    intro hmem
    obtain heq | hmem := mem_of_mem_collapse hmem
    · exact absurd heq (by decide)
    · exact (writable_cleanCell h).no_return hmem
  length_le := (length_collapse_le _).trans (writable_cleanCell h).length_le

/-! ## What has been checked -/

theorem addHeaders_eq_ok {headers headers' : List Text} {columnNumber : Nat} {seen : List Text}
    (h : addHeaders columnNumber seen headers = .ok headers') :
    headers' = headers ∧ [] ∉ headers ∧ headers.Nodup ∧ ∀ header ∈ headers, header ∉ seen := by
  induction headers generalizing columnNumber seen headers' with
  | nil =>
    cases h
    simp
  | cons header headers ih =>
    rw [addHeaders] at h
    by_cases hempty : header = []
    · rw [if_pos hempty] at h
      cases h
    · by_cases hseen : header ∈ seen
      · rw [if_neg hempty, if_pos hseen] at h
        cases h
      · rw [if_neg hempty, if_neg hseen] at h
        cases hrest : addHeaders (columnNumber + 1) (header :: seen) headers with
        | error e =>
          rw [hrest] at h
          cases h
        | ok rest =>
          rw [hrest] at h
          cases h
          obtain ⟨rfl, hne, hnodup, hnew⟩ := ih hrest
          have hnot : header ∉ rest := fun hmem => hnew header hmem List.mem_cons_self
          refine ⟨rfl, ?_, List.nodup_cons.mpr ⟨hnot, hnodup⟩, ?_⟩
          · rw [List.mem_cons, not_or]
            exact ⟨fun heq => hempty heq.symm, hne⟩
          · intro other hother
            obtain rfl | hother := List.mem_cons.mp hother
            · exact hseen
            · exact fun hmem => hnew other hother (List.mem_cons_of_mem _ hmem)

/-- A header that is accepted: its names are cleaned, and they are there, not empty and different. -/
theorem normalizeHeaders_eq_ok {headers headers' : List Text}
    (h : normalizeHeaders headers = .ok headers') :
    headers' = headers.map normalizeHeader ∧ headers' ≠ [] ∧ [] ∉ headers' ∧ headers'.Nodup := by
  unfold normalizeHeaders at h
  by_cases hempty : headers = []
  · rw [if_pos hempty] at h
    cases h
  · rw [if_neg hempty] at h
    simp only at h
    split at h
    · cases h
    · obtain ⟨rfl, hne, hnodup, -⟩ := addHeaders_eq_ok h
      exact ⟨rfl, fun hnil => hempty (List.map_eq_nil_iff.mp hnil), hne, hnodup⟩

/-- The rows that are kept, one field for each column. -/
theorem cleanRows_eq_ok {rows : List Record} {columnCount recordNumber blank : Nat}
    {kept : List (List Text)} (h : cleanRows columnCount recordNumber rows = .ok (kept, blank)) :
    kept = keptRows rows ∧ kept.length + blank = rows.length ∧
      ∀ row ∈ kept, row.length = columnCount := by
  induction rows generalizing recordNumber kept blank with
  | nil =>
    cases h
    simp [keptRows]
  | cons row rows ih =>
    rw [cleanRows] at h
    simp only at h
    cases hrest : cleanRows columnCount (recordNumber + 1) rows with
    | error e =>
      rw [hrest] at h
      repeat' split at h
      all_goals cases h
    | ok rest =>
      obtain ⟨tail, tailBlank⟩ := rest
      obtain ⟨rfl, hlength, hcolumns⟩ := ih hrest
      rw [hrest] at h
      by_cases hblank : isBlankRow (row.fields.map cleanCell) = true
      · rw [if_pos hblank] at h
        cases h
        refine ⟨by simp [keptRows, hblank], ?_, hcolumns⟩
        show (keptRows rows).length + (tailBlank + 1) = rows.length + 1
        omega
      · by_cases hcount : (row.fields.map cleanCell).length ≠ columnCount
        · rw [if_neg hblank, if_pos hcount] at h
          cases h
        · rw [if_neg hblank, if_neg hcount] at h
          cases h
          refine ⟨by simp [keptRows, hblank], ?_, ?_⟩
          · show (keptRows rows).length + 1 + tailBlank = rows.length + 1
            omega
          · intro r hr
            obtain rfl | hr := List.mem_cons.mp hr
            · exact not_not.mp hcount
            · exact hcolumns r hr

/-- What the processor reports of a file that it accepts: `headers` and `rows` are the source's. -/
structure Accepted (headers : List Text) (rows : List Record) (result : ProcessResult) : Prop where
  headers_eq : result.metadata.headers = headers.map normalizeHeader
  headers_ne_nil : result.metadata.headers ≠ []
  header_ne_nil : [] ∉ result.metadata.headers
  nodup : result.metadata.headers.Nodup
  cleaned_eq : result.cleaned = writeRows excel (result.metadata.headers :: keptRows rows)
  columns : ∀ row ∈ keptRows rows, row.length = result.metadata.headers.length
  counts : result.metadata.rowCount = (keptRows rows).length ∧
    result.metadata.rowCount + result.metadata.blankRowCount = rows.length

theorem process_eq_ok {sniff : Text → Option Dialect} {file : SourceFile} {result : ProcessResult}
    (h : process sniff file = .ok result) :
    ∃ header rows, (sourceRecords sniff file result.metadata.sourceEncoding).2 =
        ⟨header :: rows, none⟩ ∧ Accepted header.fields rows result := by
  unfold process at h
  by_cases hsize : file.size = 0
  · simp [hsize, throw, throwThe, MonadExceptOf.throw, Bind.bind, Except.bind] at h
  · simp only [if_neg hsize] at h
    cases hencoding : detectEncoding file with
    | error e =>
      rw [hencoding] at h
      cases h
    | ok encoding =>
      rw [hencoding] at h
      simp only [Bind.bind, Except.bind] at h
      cases hrows : (sourceRecords sniff file encoding).2.rows with
      | nil =>
        rw [hrows] at h
        cases h
      | cons header rows =>
        rw [hrows] at h
        simp only at h
        cases hheaders : normalizeHeaders header.fields with
        | error e =>
          rw [hheaders] at h
          cases h
        | ok headers =>
          rw [hheaders] at h
          simp only at h
          cases hclean : cleanRows headers.length 1 rows with
          | error e =>
            rw [hclean] at h
            cases h
          | ok cleaned =>
            obtain ⟨kept, blank⟩ := cleaned
            rw [hclean] at h
            simp only at h
            cases hfailure : (sourceRecords sniff file encoding).2.failure with
            | some e =>
              rw [hfailure] at h
              cases h
            | none =>
              rw [hfailure] at h
              cases h
              obtain ⟨hnames, hne, hname, hnodup⟩ := normalizeHeaders_eq_ok hheaders
              obtain ⟨rfl, hlength, hcolumns⟩ := cleanRows_eq_ok hclean
              refine ⟨header, rows, ?_, hnames, hne, hname, hnodup, rfl, hcolumns, rfl, hlength⟩
              rw [← hrows, ← hfailure]

end DocFlow.CsvProcessor
