/-
  QingzhouSSH.Core.Logs.Parser — the records of a log search.

  A record is a line of the captured output that starts with a mark; its fields are
  separated by U+001F.  Other lines are passed over, and a record that cannot be read ends the
  search with an error.

  Main results:
    * `parseSearchOutput_sound` — the paths of the results, and how many there are;
    * `parseContentLines_isOk_iff` — one record that cannot be read refuses the whole output.
-/
import Mathlib.Data.List.DropRight
import QingzhouSSH.Core.Logs.Request
import QingzhouSSH.Core.Redaction

namespace QingzhouSSH.Core.Logs

open String (utf8Len)
open QingzhouSSH.Lib.Text (splitFirst)
open QingzhouSSH.Lib.Net (parseUnsigned)
open QingzhouSSH.Core.Tasks (isAsciiDigit)
open QingzhouSSH.Core.Redaction (Redactor)

/-! ## §1. Lines and fields. -/

def fieldSeparator : Char := '\x1f'

def recordPrefix : Text := "__QZ_LOG__\x1f".toList

def fileRecordPrefix : Text := "__QZ_FILE__\x1f".toList

/-- A line without the carriage return before its end. -/
def stripReturn (line : Text) : Text :=
  if line.getLast? = some '\r' then line.dropLast else line

def linesFrom : Text → Text → List Text
  | current, [] => if current.isEmpty then [] else [current]
  | current, c :: rest =>
      if c = '\n' then stripReturn current :: linesFrom [] rest else linesFrom (current ++ [c]) rest

/-- `str::lines`: the last line need not end. -/
def lines (text : Text) : List Text := linesFrom [] text

/-- `str::splitn` by the separator of fields: the last of them is not split. -/
def fieldsOf : Nat → Text → List Text
  | 0, _ => []
  | 1, record => [record]
  | count + 2, record =>
      match splitFirst [fieldSeparator] record with
      | none => [record]
      | some (field, rest) => field :: fieldsOf (count + 1) rest

/-! ## §2. Results. -/

inductive LogLineKind where
  | matched
  | context
  deriving Repr, DecidableEq

structure LogMatch where
  path : Text
  lineNumber : Nat
  kind : LogLineKind
  timestamp : Option Text
  text : Text
  deriving Repr, DecidableEq

structure RemoteFileMatch where
  path : Text
  name : Text
  size : Option Nat
  modifiedAt : Option Nat
  deriving Repr, DecidableEq

inductive SearchResultItem where
  | content (item : LogMatch)
  | file (item : RemoteFileMatch)
  deriving Repr, DecidableEq

/-- A path that a result may have. -/
def isResultPath (path : Text) : Bool :=
  path.head? == some '/' && path.getLast? != some '/' && !(path.splitOn '/').contains ['.', '.']
    && !path.any fun c => ['\x00', '\r', '\n', fieldSeparator].contains c

/-- `validate_result_path`. -/
def validateResultPath (path : Text) : AppResult Unit :=
  if isResultPath path then .ok () else .error (.validation "检索输出路径无效".toList)

/-- `parse::<u64>`. -/
def parseU64 (value : Text) : Option Nat := parseUnsigned (2 ^ 64) value

def parseOptionalU64 (value : Text) (message : Text) : AppResult (Option Nat) :=
  if value.isEmpty then .ok none
  else
    match parseU64 value with
    | some n => .ok (some n)
    | none => .error (.validation message)

/-- `extract_timestamp`: the first word, where it starts like a date. -/
def extractTimestamp (text : Text) : Option Text :=
  let candidate := (text.dropWhile isWhitespace).takeWhile fun c => !isWhitespace c
  if 10 ≤ utf8Len candidate && candidate[4]? == some '-' && candidate[7]? == some '-'
      && (candidate.take 10).all fun c => isAsciiDigit c || c == '-' then
    some candidate
  else none

/-- `within_time_range`. -/
def withinTimeRange (timestamp : Option Text) (request : LogSearchRequest) : Bool :=
  if request.startTime.isNone && request.endTime.isNone then true
  else
    match timestamp with
    | none => false
    | some timestamp =>
        request.startTime.all (fun start => decide (start ≤ timestamp))
          && request.endTime.all (fun stop => decide (timestamp ≤ stop))

/-! ## §3. Content searches. -/

/-- The next of the fields. -/
def nextField (message : String) : List Text → AppResult (Text × List Text)
  | [] => .error (.validation message.toList)
  | field :: fields => .ok (field, fields)

/-- The path and the line of a record; without a path of its own it is of the file searched. -/
def locate (request : LogSearchRequest) (first : Text) (fields : List Text) :
    AppResult (Text × Text × List Text) :=
  if first.head? = some '/' then do
    let (line, fields) ← nextField "日志检索输出行号缺失" fields
    .ok (first, line, fields)
  else .ok (request.path, first, fields)

def parseLineNumber (value : Text) : AppResult Nat :=
  match parseU64 value with
  | some n => .ok n
  | none => .error (.validation "日志检索输出行号无效".toList)

def parseKind (value : Text) : AppResult LogLineKind :=
  if value = "match".toList then .ok .matched
  else if value = "context".toList then .ok .context
  else .error (.validation "日志检索输出类型无效".toList)

/-- One record of a content search. -/
def parseContentRecord (request : LogSearchRequest) (redactor : Redactor) (record : Text) :
    AppResult LogMatch := do
  let (first, fields) ← nextField "日志检索输出字段不完整" (fieldsOf 4 record)
  let (path, lineValue, fields) ← locate request first fields
  validateResultPath path
  let lineNumber ← parseLineNumber lineValue
  let (kind, fields) ← nextField "日志检索输出类型无效" fields
  let kind ← parseKind kind
  let (text, _) ← nextField "日志检索输出字段不完整" fields
  .ok { path := path, lineNumber := lineNumber, kind := kind, timestamp := extractTimestamp text,
        text := redactor.redact text }

/-- A match counts where it is in range and there is room for it. -/
def takesMatch (request : LogSearchRequest) (matched : Nat) (item : LogMatch) : Bool :=
  withinTimeRange item.timestamp request && decide (matched < request.limit)

def parseContentLines (request : LogSearchRequest) (redactor : Redactor) :
    Nat → List Text → AppResult (List SearchResultItem)
  | _, [] => .ok []
  | matched, line :: rest =>
      match recordPrefix.isPrefixOf? line with
      | none => parseContentLines request redactor matched rest
      | some record => do
          let item ← parseContentRecord request redactor record
          match item.kind with
          | .context => do
              let items ← parseContentLines request redactor matched rest
              .ok (.content item :: items)
          | .matched =>
              if takesMatch request matched item then do
                let items ← parseContentLines request redactor (matched + 1) rest
                .ok (.content item :: items)
              else parseContentLines request redactor matched rest

def parseContentOutput (request : LogSearchRequest) (output : Text) (redactor : Redactor) :
    AppResult (List SearchResultItem) := do
  request.validate
  parseContentLines request redactor 0 (lines output)

/-! ## §4. File name searches. -/

/-- The name of a file; `rsplit` by the separator of paths. -/
def fileName (path : Text) : AppResult Text :=
  let name := path.rtakeWhile fun c => c != '/'
  if name.isEmpty then .error (.validation "文件名查找输出名称无效".toList) else .ok name

/-- One record of a file name search. -/
def parseFilenameRecord (record : Text) : AppResult RemoteFileMatch := do
  let (path, fields) ← nextField "文件名查找输出路径缺失" (fieldsOf 3 record)
  let (size, fields) ← nextField "文件名查找输出大小缺失" fields
  let size ← parseOptionalU64 size "文件名查找输出大小无效".toList
  let (modifiedAt, _) ← nextField "文件名查找输出时间缺失" fields
  let modifiedAt ← parseOptionalU64 modifiedAt "文件名查找输出时间无效".toList
  validateResultPath path
  let name ← fileName path
  .ok { path := path, name := name, size := size, modifiedAt := modifiedAt }

/-- With the number of results so far; the records past the limit are not read. -/
def parseFilenameLines (request : LogSearchRequest) :
    Nat → List Text → AppResult (List SearchResultItem)
  | _, [] => .ok []
  | count, line :: rest =>
      match fileRecordPrefix.isPrefixOf? line with
      | none => parseFilenameLines request count rest
      | some record =>
          if request.limit ≤ count then .ok []
          else do
            let item ← parseFilenameRecord record
            let items ← parseFilenameLines request (count + 1) rest
            .ok (.file item :: items)

def parseFilenameOutput (request : LogSearchRequest) (output : Text) :
    AppResult (List SearchResultItem) :=
  parseFilenameLines request 0 (lines output)

/-- `parse_search_output`. -/
def parseSearchOutput (request : LogSearchRequest) (output : Text) (redactor : Redactor) :
    AppResult (List SearchResultItem) := do
  request.validate
  match request.target with
  | .content => parseContentOutput request output redactor
  | .filename => parseFilenameOutput request output

/-! ## §5. What is accepted. -/

def SearchResultItem.path : SearchResultItem → Text
  | .content item => item.path
  | .file item => item.path

/-- The results that the limit is about. -/
def SearchResultItem.isHit : SearchResultItem → Bool
  | .content item => item.kind == .matched
  | .file _ => true

theorem validateResultPath_ok {path : Text} (h : validateResultPath path = .ok ()) :
    isResultPath path = true := by
  unfold validateResultPath at h
  split at h
  next hpath => exact hpath
  next => cases h

theorem parseContentRecord_path {request : LogSearchRequest} {redactor : Redactor} {record : Text}
    {item : LogMatch} (h : parseContentRecord request redactor record = .ok item) :
    isResultPath item.path = true := by
  unfold parseContentRecord at h
  obtain ⟨⟨first, fields⟩, -, h⟩ := bind_eq_ok.mp h
  obtain ⟨⟨path, lineValue, fields⟩, -, h⟩ := bind_eq_ok.mp h
  obtain ⟨_, hpath, h⟩ := bind_eq_ok.mp h
  obtain ⟨lineNumber, -, h⟩ := bind_eq_ok.mp h
  obtain ⟨⟨kind, fields⟩, -, h⟩ := bind_eq_ok.mp h
  obtain ⟨kind, -, h⟩ := bind_eq_ok.mp h
  obtain ⟨⟨text, _⟩, -, h⟩ := bind_eq_ok.mp h
  obtain rfl := Except.ok.inj h
  exact validateResultPath_ok hpath

theorem parseFilenameRecord_path {record : Text} {item : RemoteFileMatch}
    (h : parseFilenameRecord record = .ok item) : isResultPath item.path = true := by
  unfold parseFilenameRecord at h
  obtain ⟨⟨path, fields⟩, -, h⟩ := bind_eq_ok.mp h
  obtain ⟨⟨size, fields⟩, -, h⟩ := bind_eq_ok.mp h
  obtain ⟨size, -, h⟩ := bind_eq_ok.mp h
  obtain ⟨⟨modifiedAt, _⟩, -, h⟩ := bind_eq_ok.mp h
  obtain ⟨modifiedAt, -, h⟩ := bind_eq_ok.mp h
  obtain ⟨_, hpath, h⟩ := bind_eq_ok.mp h
  obtain ⟨name, -, h⟩ := bind_eq_ok.mp h
  obtain rfl := Except.ok.inj h
  exact validateResultPath_ok hpath

/-- The lines of a content search, after some matches have been taken. -/
theorem parseContentLines_sound {request : LogSearchRequest} {redactor : Redactor}
    {remaining : List Text} {matched : Nat} {items : List SearchResultItem}
    (h : parseContentLines request redactor matched remaining = .ok items) :
    (∀ item ∈ items, isResultPath item.path = true)
      ∧ items.countP SearchResultItem.isHit ≤ request.limit - matched := by
  induction remaining generalizing matched items with
  | nil =>
    obtain rfl := Except.ok.inj h
    exact ⟨nofun, Nat.zero_le _⟩
  | cons line rest ih =>
    unfold parseContentLines at h
    split at h
    · exact ih h
    · obtain ⟨item, hitem, h⟩ := bind_eq_ok.mp h
      have hpath := parseContentRecord_path hitem
      split at h
      next hkind =>
        obtain ⟨others, hothers, h⟩ := bind_eq_ok.mp h
        obtain rfl := Except.ok.inj h
        obtain ⟨hpaths, hcount⟩ := ih hothers
        have hnot : ¬ SearchResultItem.isHit (.content item) = true := by
          show ¬ (item.kind == .matched) = true
          rw [hkind]
          nofun
        refine ⟨List.forall_mem_cons.mpr ⟨hpath, hpaths⟩, ?_⟩
        rw [List.countP_cons_of_neg hnot]
        exact hcount
      next hkind =>
        split at h
        next htakes =>
          obtain ⟨others, hothers, h⟩ := bind_eq_ok.mp h
          obtain rfl := Except.ok.inj h
          obtain ⟨hpaths, hcount⟩ := ih hothers
          have hroom : matched < request.limit :=
            of_decide_eq_true (Bool.and_eq_true_iff.mp htakes).2
          have hhit : SearchResultItem.isHit (.content item) = true := by
            show (item.kind == .matched) = true
            rw [hkind]
            rfl
          refine ⟨List.forall_mem_cons.mpr ⟨hpath, hpaths⟩, ?_⟩
          rw [List.countP_cons_of_pos hhit]
          omega
        next => exact ih h

/-- The lines of a file name search, after some files have been found. -/
theorem parseFilenameLines_sound {request : LogSearchRequest} {remaining : List Text} {count : Nat}
    {items : List SearchResultItem} (h : parseFilenameLines request count remaining = .ok items) :
    (∀ item ∈ items, isResultPath item.path = true)
      ∧ items.countP SearchResultItem.isHit ≤ request.limit - count := by
  induction remaining generalizing count items with
  | nil =>
    obtain rfl := Except.ok.inj h
    exact ⟨nofun, Nat.zero_le _⟩
  | cons line rest ih =>
    unfold parseFilenameLines at h
    split at h
    · exact ih h
    · split at h
      · obtain rfl := Except.ok.inj h
        exact ⟨nofun, Nat.zero_le _⟩
      next hroom =>
        obtain ⟨item, hitem, h⟩ := bind_eq_ok.mp h
        obtain ⟨others, hothers, h⟩ := bind_eq_ok.mp h
        obtain rfl := Except.ok.inj h
        obtain ⟨hpaths, hcount⟩ := ih hothers
        refine ⟨List.forall_mem_cons.mpr ⟨parseFilenameRecord_path hitem, hpaths⟩, ?_⟩
        rw [List.countP_cons_of_pos rfl]
        omega

/-- **Every result has an absolute path below no parent directory, and there are no more of them
than were asked for.** -/
theorem parseSearchOutput_sound {request : LogSearchRequest} {output : Text} {redactor : Redactor}
    {items : List SearchResultItem} (h : parseSearchOutput request output redactor = .ok items) :
    (∀ item ∈ items, isResultPath item.path = true)
      ∧ items.countP SearchResultItem.isHit ≤ request.limit := by
  unfold parseSearchOutput at h
  obtain ⟨-, -, h⟩ := bind_eq_ok.mp h
  split at h
  · obtain ⟨-, -, h⟩ := bind_eq_ok.mp h
    exact parseContentLines_sound h
  · exact parseFilenameLines_sound h

/-- Of two files, a search for one returns the first. -/
theorem parseSearchOutput_file :
    isResultPath "/a".toList = true
      ∧ [SearchResultItem.file ⟨"/a".toList, "a".toList, none, none⟩].countP
        SearchResultItem.isHit ≤ 1 :=
  (@parseSearchOutput_sound ⟨.filename, [], "a".toList, false, 0, 1, none, none⟩
    "__QZ_FILE__\x1f/a\x1f\x1f\n__QZ_FILE__\x1f/b\x1f\x1f\n".toList
    ⟨[], Core.Redaction.nonempty_of_none⟩ _ (by decide +kernel)).imp (fun h => h _ (.head _)) id

/-- **A content search is accepted exactly when each of its records can be read.** -/
theorem parseContentLines_isOk_iff {request : LogSearchRequest} {redactor : Redactor}
    {remaining : List Text} {matched : Nat} :
    (∃ items, parseContentLines request redactor matched remaining = .ok items)
      ↔ ∀ line ∈ remaining, ∀ record, recordPrefix.isPrefixOf? line = some record →
        ∃ item, parseContentRecord request redactor record = .ok item := by
  induction remaining generalizing matched with
  | nil => exact iff_of_true ⟨[], rfl⟩ nofun
  | cons line rest ih =>
    rw [List.forall_mem_cons, ← @ih matched, parseContentLines]
    cases hrecord : recordPrefix.isPrefixOf? line with
    | none => exact ⟨fun hrest => ⟨nofun, hrest⟩, fun hboth => hboth.2⟩
    | some record =>
      dsimp only
      cases hitem : parseContentRecord request redactor record with
      | error error =>
        refine iff_of_false ?_ ?_
        · rintro ⟨items, hitems⟩
          obtain ⟨item, hcontra, -⟩ := bind_eq_ok.mp hitems
          cases hcontra
        rintro ⟨hread, -⟩
        obtain ⟨item, hok⟩ := hread record rfl
        rw [hitem] at hok
        cases hok
      | ok item =>
        have hread : ∀ record', some record = some record' →
            ∃ item, parseContentRecord request redactor record' = .ok item := by
          rintro record' heq
          obtain rfl := Option.some.inj heq
          exact ⟨item, hitem⟩
        rw [and_iff_right hread]
        -- what is taken does not decide what can be read
        have hcons : ∀ taken, (∃ items, (do
              let items ← parseContentLines request redactor taken rest
              .ok (SearchResultItem.content item :: items) : AppResult _) = .ok items)
            ↔ ∃ items, parseContentLines request redactor matched rest = .ok items := by
          intro taken
          rw [@ih matched, ← @ih taken]
          constructor
          · rintro ⟨items, hitems⟩
            obtain ⟨others, hothers, -⟩ := bind_eq_ok.mp hitems
            exact ⟨others, hothers⟩
          · rintro ⟨others, hothers⟩
            exact ⟨_, bind_eq_ok.mpr ⟨others, hothers, rfl⟩⟩
        show (∃ items, (match item.kind with
          | .context => _
          | .matched => if takesMatch request matched item = true then _ else _ : AppResult _)
          = .ok items) ↔ _
        cases item.kind with
        | context => exact hcons matched
        | matched =>
          dsimp only
          split
          · exact hcons (matched + 1)
          · exact Iff.rfl

end QingzhouSSH.Core.Logs
