import DocFlow.Lib.Base64
import DocFlow.Lib.Calendar
import DocFlow.Lib.Csv
import DocFlow.Lib.JsonLoads
import DocFlow.Lib.Paging
import Mathlib.Data.Prod.Lex

/-!
# The log repository

`JsonlLogRepository.scan`: the files of the sources are read line by line, the events that match are
sorted by their keys, and a page of them is answered with the cursor of the next page.

What Python's library makes of a text is an argument (`Python`): which texts are times, which lines are
too much for the interpreter, and how a value that is no string is printed.
-/

namespace DocFlow.Operations

open Text Calendar

/-! ## Events -/

/-- An object, as its members. -/
abbrev Event := List (Str × Json)

/-- `event.get(key)`; of equal keys the last one counts. -/
def Event.get (event : Event) (key : String) : Option Json := event.reverse.lookup (str key.toList)

/-- The value can be looked up in a set; lists and objects have no hash. -/
def isHashable : Json → Bool
  | .arr _ => false
  | .obj _ => false
  | _ => true

/-- A time that was read; the offset from UTC is in microseconds. -/
structure ParsedTime where
  wall : DateTime
  offset : Option Int
deriving DecidableEq, Repr

/-- The instant, in microseconds; a time without an offset is a time in UTC. -/
def ParsedTime.instant (parsed : ParsedTime) : Int := parsed.wall.micros - parsed.offset.getD 0

/-- `_utc`; `none` is an `OverflowError`: there is no such time in UTC. -/
def utc (parsed : ParsedTime) : Option DateTime :=
  match parsed.offset with
  | none => some parsed.wall
  | some offset => ofMicros (parsed.wall.micros - offset)

structure Python where
  /-- `datetime.fromisoformat`; `none` is a `ValueError` -/
  fromisoformat : Codes → Option ParsedTime
  /-- `json.loads` of the line ends with an error that is no `JSONDecodeError`: the nesting is too deep,
  or an integer has too many digits -/
  exceeds : Text → Bool
  /-- `str(value or "")`, of a value that is no string -/
  textOf : Json → Str

structure SortKey where
  createdAt : Str
  eventId : Str
  sourceId : Str
  filename : Str
  lineNumber : Int
deriving DecidableEq

/-- Tuples are compared from the first component on. -/
def SortKey.toTuple (key : SortKey) : Lex (Str × Lex (Str × Lex (Str × Lex (Str × Int)))) :=
  toLex (key.createdAt, toLex (key.eventId, toLex (key.sourceId, toLex (key.filename,
    key.lineNumber))))

instance : LinearOrder SortKey := LinearOrder.lift' SortKey.toTuple fun a b h => by
  cases a
  cases b
  cases h
  rfl

structure IndexedEvent where
  event : Event
  sortKey : SortKey

inductive ScanError
  /-- `OperationsQueryError` -/
  | query (statusCode : Nat) (detail : String)
  | overflow
  | unicodeDecode
  /-- the error of the interpreter at a line that is too much for it -/
  | limits
  /-- the `TypeError` of a filter -/
  | unhashable
deriving DecidableEq, Repr

/-! ## Lines -/

/-- `value.replace("Z", "+00:00")`. -/
def replaceZ (s : Codes) : Codes := s.flatMap fun c => if c = 90 then codes "+00:00".toList else [c]

/-- `_parse_datetime`. -/
def parseDatetime (py : Python) (value : Option Json) : Except ScanError (Option DateTime) :=
  match value with
  | some (.str s) =>
    match py.fromisoformat (replaceZ s.codes) with
    | none => .ok none
    | some parsed =>
      match utc parsed with
      | none => .error .overflow
      | some t => .ok (some t)
  | _ => .ok none

/-- `str(event.get("event_id") or "")`. -/
def eventIdOf (py : Python) (event : Event) : Str :=
  match event.get "event_id" with
  | none => str []
  | some .null => str []
  | some (.str s) => s
  | some v => py.textOf v

structure JsonlLogSource where
  sourceId : Str
  directory : String
  filePrefix : Str
deriving DecidableEq

/-- An event of a line, with its key. -/
def indexEvent (py : Python) (source : JsonlLogSource) (filename : Str) (lineNumber : Nat)
    (event : Event) (t : DateTime) : IndexedEvent where
  event := event
  sortKey :=
    { createdAt := str (isoformat t)
      eventId := eventIdOf py event
      sourceId := source.sourceId
      filename := filename
      lineNumber := lineNumber }

/-- `_parse_line`. -/
def parseLine (py : Python) (source : JsonlLogSource) (filename : Str) (lineNumber : Nat)
    (line : Text) : Except ScanError (Option IndexedEvent) :=
  if py.exceeds line = true then .error .limits
  else
    match Json.loads line with
    | some (.obj event) => do
      match ← parseDatetime py (Event.get event "created_at") with
      | none => return none
      | some t => return some (indexEvent py source filename lineNumber event t)
    | _ => .ok none

structure LogQuery where
  /-- `none` is a `TypeError`: a list or an object is looked up in a set -/
  predicate : Event → Option Bool
  createdFrom : Option ParsedTime
  createdTo : Option ParsedTime
  limit : Nat
  ascending : Bool

/-- The test of a bound, which is converted each time. -/
def outside (bound : Option ParsedTime) (test : DateTime → Bool) : Except ScanError Bool :=
  match bound with
  | none => .ok false
  | some parsed =>
    match utc parsed with
    | none => .error .overflow
    | some u => .ok (test u)

/-- The loop of `_read_file`, at one line. -/
def readLine (py : Python) (q : LogQuery) (source : JsonlLogSource) (filename : Str)
    (lineNumber : Nat) (line : Text) : Except ScanError (Option IndexedEvent) := do
  match ← parseLine py source filename lineNumber line with
  | none => return none
  | some indexed =>
    match ← parseDatetime py (Event.get indexed.event "created_at") with
    | none => return none
    | some createdAt =>
      if ← outside q.createdFrom fun u => createdAt.micros < u.micros then return none
      else if ← outside q.createdTo fun u => u.micros < createdAt.micros then return none
      else
        match q.predicate indexed.event with
        | none => throw .unhashable
        | some true => return some indexed
        | some false => return none

/-! ## Files -/

structure LogFile where
  name : Str
  isSymlink : Bool
  isFile : Bool
  /-- the resolved path is in the directory of the source -/
  inDirectory : Bool
  /-- `none` is an `OSError` -/
  content : Option ByteArray

/-- The names in a directory are different. -/
structure Entries where
  files : List LogFile
  nodup : (files.map LogFile.name).Nodup

inductive Directory
  | missing
  /-- `glob` ends with an `OSError` -/
  | unreadable
  | entries (e : Entries)

abbrev FileSystem := String → Directory

/-- The lines of a text file, each with its end. -/
def textLines (s : Text) : List Text :=
  Csv.linesOf (replaceChar '\r' '\n' (replacePair '\r' '\n' '\n' s))

def readLines (py : Python) (q : LogQuery) (source : JsonlLogSource) (filename : Str) :
    Nat → List Text → Except ScanError (List IndexedEvent)
  | _, [] => .ok []
  | lineNumber, line :: lines => do
    let indexed ← readLine py q source filename lineNumber line
    let rest ← readLines py q source filename (lineNumber + 1) lines
    return indexed.toList ++ rest

/-- `_read_file`. -/
def readFile (py : Python) (q : LogQuery) (source : JsonlLogSource) (file : LogFile) :
    Except ScanError (List IndexedEvent) :=
  match file.content with
  | none => .error (.query 503 "日志文件读取失败")
  | some bytes =>
    match ofUtf8 bytes with
    | none => .error .unicodeDecode
    | some s => readLines py q source file.name 1 (textLines s)

/-- `f"{source.file_prefix}-*.jsonl"`. -/
def matchesPattern (filePrefix name : Str) : Bool :=
  let start := filePrefix.codes ++ codes ['-']
  start.isPrefixOf name.codes && (codes ".jsonl".toList).isSuffixOf (name.codes.drop start.length)

/-- The files of a source that are read. -/
def isRead (source : JsonlLogSource) (file : LogFile) : Bool :=
  matchesPattern source.filePrefix file.name && !file.isSymlink && file.isFile && file.inDirectory

def readFiles (py : Python) (q : LogQuery) (source : JsonlLogSource) :
    List LogFile → Except ScanError (List IndexedEvent)
  | [] => .ok []
  | file :: files =>
    if isRead source file = true then do
      let events ← readFile py q source file
      let rest ← readFiles py q source files
      return events ++ rest
    else readFiles py q source files

/-- `_read_source`. -/
def readSource (py : Python) (fs : FileSystem) (q : LogQuery) (source : JsonlLogSource) :
    Except ScanError (List IndexedEvent) :=
  match fs source.directory with
  | .missing => .ok []
  | .unreadable => .error (.query 503 "日志目录读取失败")
  | .entries e => readFiles py q source (sortedBy LogFile.name e.files)

def readSources (py : Python) (fs : FileSystem) (q : LogQuery) :
    List JsonlLogSource → Except ScanError (List IndexedEvent)
  | [] => .ok []
  | source :: sources => do
    let events ← readSource py fs q source
    let rest ← readSources py fs q sources
    return events ++ rest

/-! ## Cursors -/

/-- A separator that is no surrogate makes no pair. -/
theorem unpaired_append_cons {a b : Codes} {c : Nat} (ha : Unpaired a) (hb : Unpaired (c :: b))
    (hc : isLow c = false) : Unpaired (a ++ c :: b) := by
  induction a with
  | nil => exact hb
  | cons d a ih =>
    refine Json.unpaired_cons (ih ha.tail) fun e he hpair => ?_
    cases a with
    | nil =>
      obtain rfl := Option.some.inj he
      rw [hc] at hpair
      cases hpair.2
    | cons e' a =>
      obtain rfl := Option.some.inj he
      exact (List.isChain_cons_cons.mp ha).1 hpair

/-- `f"{source.source_id}:{source.file_prefix}"`. -/
def JsonlLogSource.signature (source : JsonlLogSource) : Str where
  codes := source.sourceId.codes ++ 58 :: source.filePrefix.codes
  bound := by
    intro c hc
    obtain hc | hc := List.mem_append.mp hc
    · exact source.sourceId.bound c hc
    · obtain rfl | hc := List.mem_cons.mp hc
      · decide
      · exact source.filePrefix.bound c hc
  unpaired := by
    refine unpaired_append_cons source.sourceId.unpaired ?_ (by decide)
    refine Json.unpaired_cons source.filePrefix.unpaired fun d _ hpair => ?_
    exact absurd hpair.1 (by decide)

/-- `_source_signature`. -/
def sourceSignature (sources : List JsonlLogSource) : List Str := sources.map (·.signature)

/-- The payload of a cursor. -/
def cursorPayload (sources : List JsonlLogSource) (ascending : Bool) (key : SortKey) : Json :=
  .obj [
    (str "version".toList, .int 1),
    (str "ascending".toList, .bool ascending),
    (str "sources".toList, .arr ((sourceSignature sources).map .str)),
    (str "key".toList, .arr [.str key.createdAt, .str key.eventId, .str key.sourceId,
      .str key.filename, .int key.lineNumber])]

/-- `_encode_cursor`. -/
def encodeCursor (sources : List JsonlLogSource) (ascending : Bool) (key : SortKey) : Text :=
  Base64.unpad (Base64.encode
    (toUtf8 ((cursorPayload sources ascending key).dumps true)).data.toList)

/-- A decimal that is nearer to one than to any other `float`. -/
def roundsToOne (mantissa : Nat) (exponent : Int) : Bool :=
  let numerator := mantissa * 10 ^ exponent.toNat
  let denominator := 10 ^ (-exponent).toNat
  decide ((2 ^ 54 - 1) * denominator ≤ numerator * 2 ^ 54) &&
    decide (numerator * 2 ^ 53 ≤ (2 ^ 53 + 1) * denominator)

/-- `value == 1`. -/
def isOne : Json → Bool
  | .int n => n = 1
  | .bool b => b
  | .float negative mantissa exponent => !negative && roundsToOne mantissa exponent
  | _ => false

def isBool (b : Bool) : Json → Bool
  | .bool c => c = b
  | _ => false

def isStr (s : Str) : Json → Bool
  | .str t => t = s
  | _ => false

/-- The value is the list of these strings. -/
def isStrings (strings : List Str) : Json → Bool
  | .arr items => items.length = strings.length &&
    (items.zip strings).all fun pair => isStr pair.2 pair.1
  | _ => false

/-- The key in a payload; a `bool` is an `int`. -/
def keyOfJson : Json → Option SortKey
  | .arr [.str createdAt, .str eventId, .str sourceId, .str filename, .int n] =>
    some ⟨createdAt, eventId, sourceId, filename, n⟩
  | .arr [.str createdAt, .str eventId, .str sourceId, .str filename, .bool b] =>
    some ⟨createdAt, eventId, sourceId, filename, if b then 1 else 0⟩
  | _ => none

/-- The payload of a cursor, checked. -/
def keyOfPayload (sources : List JsonlLogSource) (ascending : Bool) (payload : Json) :
    Option SortKey :=
  match payload with
  | .obj members =>
    match Event.get members "key" with
    | none => none
    | some key =>
      if ((Event.get members "version").map isOne).getD false = true ∧
          ((Event.get members "ascending").map (isBool ascending)).getD false = true ∧
          ((Event.get members "sources").map (isStrings (sourceSignature sources))).getD false = true
      then keyOfJson key
      else none
  | _ => none

/-- `_decode_cursor`, of a cursor that is there. -/
def decodeCursor (sources : List JsonlLogSource) (ascending : Bool) (cursor : Text) :
    Except ScanError SortKey :=
  match do
    let bytes ← Base64.decode (Base64.pad cursor)
    let s ← ofUtf8 ⟨bytes.toArray⟩
    let payload ← Json.loads s
    keyOfPayload sources ascending payload
  with
  | none => .error (.query 400 "日志查询 cursor 无效")
  | some key => .ok key

/-! ## The scan -/

structure JsonlScanPage where
  events : List Event
  nextCursor : Option Text

/-- The events in the order of the query. -/
def inOrder (ascending : Bool) (indexed : List IndexedEvent) : List IndexedEvent :=
  if ascending then sortedBy (·.sortKey) indexed
  else sortedBy (fun e => OrderDual.toDual e.sortKey) indexed

/-- The events behind the position of the cursor. -/
def behindCursor (ascending : Bool) (cursorKey : Option SortKey) (indexed : List IndexedEvent) :
    List IndexedEvent :=
  match cursorKey with
  | none => indexed
  | some key =>
    if ascending then indexed.filter fun e => key < e.sortKey
    else indexed.filter fun e => e.sortKey < key

/-- `JsonlLogRepository.scan`. -/
def scan (py : Python) (sources : List JsonlLogSource) (fs : FileSystem) (q : LogQuery)
    (cursor : Option Text) : Except ScanError JsonlScanPage := do
  if q.limit < 1 then throw (.query 400 "limit 必须大于 0")
  let cursorKey ← match cursor with
    | none => pure none
    | some cursor => some <$> decodeCursor sources q.ascending cursor
  let indexed ← readSources py fs q sources
  let rest := behindCursor q.ascending cursorKey (inOrder q.ascending indexed)
  let candidates := rest.take (q.limit + 1)
  let page := candidates.take q.limit
  return {
    events := page.map (·.event)
    nextCursor :=
      if q.limit < candidates.length then
        page.getLast?.map fun e => encodeCursor sources q.ascending e.sortKey
      else none }

end DocFlow.Operations
