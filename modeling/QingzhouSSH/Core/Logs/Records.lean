/-
  QingzhouSSH.Core.Logs.Records — the records that the search commands print.

  A record is one line: a mark, and fields with U+001F between them.  The search of one
  file prints no path, the smart search one in front, the search for file names a path, a
  size and a time.  The parser tells the formats apart by what a record starts with.

  Main results:
    * `parseContentRecord_payload` — how a record with an accepted path is read;
    * `readsAsMatch_of_parse` — how one with another path is;
    * `search_records_survive_iff` — which records survive the round trip.
-/
import QingzhouSSH.Core.Logs.Parser

namespace QingzhouSSH.Core.Logs

open QingzhouSSH.Lib
open QingzhouSSH.Lib.Text
open QingzhouSSH.Lib.Net (parseUnsigned_toDigits digits_of_parseUnsigned)
open QingzhouSSH.Core.Redaction (Redactor)

/-! ## §1. What is printed. -/

/-- A line of a log that a search has found. -/
structure LogRecord where
  path : Text
  lineNumber : Nat
  kind : LogLineKind
  text : Text
  deriving Repr, DecidableEq

/-- A file that a search has found. -/
structure FileRecord where
  path : Text
  size : Option Nat
  modifiedAt : Option Nat
  deriving Repr, DecidableEq

def LogLineKind.asStr : LogLineKind → Text
  | .matched => "match".toList
  | .context => "context".toList

/-- The fields after the path, as both formatters print them. -/
def LogRecord.fields (record : LogRecord) : Text :=
  showNat record.lineNumber ++ fieldSeparator :: record.kind.asStr
    ++ fieldSeparator :: record.text

/-- `printf "__QZ_LOG__\037%s\037%s\037%s\n", line, kind, text`. -/
def LogRecord.inFile (record : LogRecord) : Text := recordPrefix ++ record.fields

/-- `printf "__QZ_LOG__\037%s\037%s\037%s\037%s\n", qz_path, line, kind, text`. -/
def LogRecord.withPath (record : LogRecord) : Text :=
  recordPrefix ++ record.path ++ fieldSeparator :: record.fields

/-- What the search of a request prints after the mark. -/
def LogRecord.payload (request : LogSearchRequest) (record : LogRecord) : Text :=
  if request.path.isEmpty then record.path ++ fieldSeparator :: record.fields else record.fields

/-- The line that the search of a request prints. -/
def LogRecord.line (request : LogSearchRequest) (record : LogRecord) : Text :=
  if request.path.isEmpty then record.withPath else record.inFile

/-- What `stat` prints, or nothing. -/
def showOptional (value : Option Nat) : Text := (value.map showNat).getD []

/-- `printf '__QZ_FILE__\037%s\037%s\037%s\n' "$qz_file" "$qz_size" "$qz_modified"`. -/
def FileRecord.line (record : FileRecord) : Text :=
  fileRecordPrefix ++ record.path ++ fieldSeparator :: showOptional record.size
    ++ fieldSeparator :: showOptional record.modifiedAt

/-- The lines of an output, each of them ended. -/
def printLines (printed : List Text) : Text := printed.flatMap fun line => line ++ ['\n']

/-! ## §2. Lines and fields of what is printed. -/

theorem linesFrom_append {line : Text} (h : '\n' ∉ line) (current rest : Text) :
    linesFrom current (line ++ '\n' :: rest)
      = stripReturn (current ++ line) :: linesFrom [] rest := by
  induction line generalizing current with
  | nil =>
      show (if '\n' = '\n' then stripReturn current :: linesFrom [] rest else _) = _
      rw [if_pos rfl, List.append_nil]
  | cons c line ih =>
      obtain ⟨hc, hline⟩ := not_or.mp (mt List.mem_cons.mpr h)
      show (if c = '\n' then _ else linesFrom (current ++ [c]) (line ++ '\n' :: rest)) = _
      rw [if_neg (Ne.symm hc), ih hline, List.append_assoc]
      rfl

/-- **The lines that are printed are the lines that are read.** -/
theorem lines_printLines {printed : List Text} (h : ∀ line ∈ printed, '\n' ∉ line) :
    lines (printLines printed) = printed.map stripReturn := by
  induction printed with
  | nil => rfl
  | cons line printed ih =>
      have hline := h line List.mem_cons_self
      show linesFrom [] (line ++ ['\n'] ++ printLines printed) = _
      rw [List.append_assoc, List.singleton_append, linesFrom_append hline,
        List.nil_append, List.map_cons]
      exact congrArg _ (ih fun other hother => h other (List.mem_cons_of_mem _ hother))

theorem stripReturn_of_last {line : Text} (h : line.getLast? ≠ some '\r') :
    stripReturn line = line := if_neg h

theorem stripReturn_start (line : Text) : stripReturn line <+: line := by
  unfold stripReturn
  split
  · exact List.dropLast_prefix _
  · exact List.prefix_rfl

/-- Only the end of a line counts. -/
theorem stripReturn_append (head : Text) {tail : Text} (h : tail ≠ []) :
    stripReturn (head ++ tail) = head ++ stripReturn tail := by
  unfold stripReturn
  rw [List.getLast?_append_of_ne_nil _ h, List.dropLast_append_of_ne_nil h]
  split <;> rfl

theorem fieldsOf_cons (count : Nat) {field : Text} (h : fieldSeparator ∉ field) (rest : Text) :
    fieldsOf (count + 2) (field ++ fieldSeparator :: rest) = field :: fieldsOf (count + 1) rest := by
  rw [fieldsOf, splitFirst_singleton h]

theorem fieldsOf_last (count : Nat) {field : Text} (h : fieldSeparator ∉ field) :
    fieldsOf (count + 1) field = [field] := by
  cases count with
  | zero => rfl
  | succ count =>
      have hnone : splitFirst [fieldSeparator] field = none := by
        refine splitFirst_none.mpr fun hfound => h ?_
        exact hfound.subset List.mem_cons_self
      unfold fieldsOf
      rw [hnone]

theorem separator_not_numeral {n : Nat} : fieldSeparator ∉ showNat n := fun h =>
  absurd (showNat_numeral n _ h) (by decide)

theorem separator_not_kind (kind : LogLineKind) : fieldSeparator ∉ kind.asStr := by
  cases kind <;> decide

theorem parseKind_asStr (kind : LogLineKind) : parseKind kind.asStr = .ok kind := by
  cases kind <;> rfl

/-! ## §3. A record that is read. -/

/-- Nothing that a text starts with is changed by the redactor. -/
def Untouched (redactor : Redactor) (text : Text) : Prop :=
  ∀ seen, seen <+: text → redactor.redact seen = seen

/-- **Without secrets, a text that holds no key and no assignment is untouched.** -/
theorem untouched_of_plain {redactor : Redactor} (hsecrets : redactor.runtimeSecrets = [])
    {text : Text} (hkey : ¬ Redaction.beginMark <:+: text)
    (hmarker : ∀ marker ∈ Redaction.markers, ¬ marker <:+: text.map Tasks.toAsciiLower) :
    Untouched redactor text := by
  intro seen hseen
  have hnokey : splitFirst Redaction.beginMark seen = none :=
    splitFirst_none.mpr fun hfound => hkey (hfound.trans hseen.isInfix)
  have hblocks : Redaction.redactPrivateKeyBlocks seen = seen := by
    unfold Redaction.redactPrivateKeyBlocks
    cases seen with
    | nil => rfl
    | cons c seen =>
        show Redaction.keyBlocksFrom (seen.length + 1) (c :: seen) = _
        unfold Redaction.keyBlocksFrom
        rw [hnokey]
  have hassign : ∀ marker ∈ Redaction.markers, Redaction.redactMarker seen marker = seen := by
    intro marker hmem
    refine Redaction.redactMarker_of_none (Redaction.marker_ne_nil marker hmem) ?_
    unfold Redaction.splitMarker
    rw [splitFirst_none.mpr fun hfound =>
      hmarker marker hmem (hfound.trans (hseen.map _).isInfix)]
    rfl
  have hfold : ∀ markers : List Text, (∀ marker ∈ markers, Redaction.redactMarker seen marker = seen) →
      markers.foldl Redaction.redactMarker seen = seen := by
    intro markers hall
    induction markers with
    | nil => rfl
    | cons marker markers ih =>
        obtain ⟨hfirst, hothers⟩ := List.forall_mem_cons.mp hall
        rw [List.foldl_cons, hfirst, ih hothers]
  unfold Redactor.redact Redaction.replaceSecrets Redaction.redactNamedAssignments
  rw [hblocks, hsecrets]
  exact hfold _ hassign

/-- What the parser takes for the text: of one file's search, what is before a separator. -/
def LogRecord.seen (request : LogSearchRequest) (record : LogRecord) : Text :=
  if request.path.isEmpty then record.text
  else record.text.takeWhile fun c => c != fieldSeparator

/-- The result that a record with an accepted path is read as. -/
def LogRecord.readAs (request : LogSearchRequest) (redactor : Redactor) (record : LogRecord) :
    LogMatch where
  path := record.path
  lineNumber := record.lineNumber
  kind := record.kind
  timestamp := extractTimestamp (record.seen request)
  text := redactor.redact (record.seen request)

theorem LogRecord.readAs_text (request : LogSearchRequest) (redactor : Redactor)
    (record : LogRecord) :
    (record.readAs request redactor).text = redactor.redact (record.seen request) := by
  unfold LogRecord.readAs
  dsimp only

/-- The record without the carriage return that `str::lines` takes off. -/
def LogRecord.received (record : LogRecord) : LogRecord :=
  { record with text := stripReturn record.text }

theorem stripReturn_cons {c : Char} (h : c ≠ '\r') (text : Text) :
    stripReturn (c :: text) = c :: stripReturn text := by
  cases text with
  | nil => exact if_neg fun hlast => h (Option.some.inj hlast)
  | cons d text => exact stripReturn_append [c] (List.cons_ne_nil d text)

theorem stripReturn_line (request : LogSearchRequest) (record : LogRecord) :
    stripReturn (record.line request) = recordPrefix ++ record.received.payload request := by
  have hfields : ∀ head, stripReturn (head ++ record.fields) = head ++ record.received.fields := by
    intro head
    show stripReturn (head ++ (showNat record.lineNumber ++ fieldSeparator :: record.kind.asStr
      ++ fieldSeparator :: record.text)) = _
    rw [← List.append_assoc, stripReturn_append _ (List.cons_ne_nil _ _),
      stripReturn_cons (by decide), List.append_assoc]
    rfl
  unfold LogRecord.line LogRecord.payload LogRecord.withPath LogRecord.inFile
  split
  · have happend := hfields (recordPrefix ++ record.path ++ [fieldSeparator])
    rw [List.append_assoc, List.append_assoc, List.singleton_append, List.append_assoc,
      List.append_assoc, List.singleton_append] at happend
    rw [List.append_assoc]
    exact happend
  · exact hfields _

/-- The first field of a text. -/
theorem fieldsOf_first (count : Nat) (text : Text) :
    ∃ others, fieldsOf (count + 2) text
      = (text.takeWhile fun c => c != fieldSeparator) :: others := by
  by_cases hmem : fieldSeparator ∈ text
  · obtain ⟨before, after, rfl, hbefore⟩ := List.eq_append_cons_of_mem hmem
    refine ⟨fieldsOf (count + 1) after, ?_⟩
    rw [fieldsOf_cons count hbefore, List.takeWhile_append_of_pos, List.takeWhile_cons_of_neg,
      List.append_nil]
    · decide
    · intro c hc
      exact bne_iff_ne.mpr fun heq => hbefore (heq ▸ hc)
  · refine ⟨[], ?_⟩
    rw [fieldsOf_last _ hmem, List.takeWhile_eq_self_iff.mpr]
    intro c hc
    exact bne_iff_ne.mpr fun heq => hmem (heq ▸ hc)

theorem LogRecord.fields_eq (record : LogRecord) :
    record.fields = showNat record.lineNumber
      ++ fieldSeparator :: (record.kind.asStr ++ fieldSeparator :: record.text) :=
  List.append_assoc _ _ _

/-- What an accepted path starts with, and what it does not hold. -/
theorem of_isResultPath {path : Text} (h : isResultPath path = true) :
    path.head? = some '/' ∧ path.getLast? ≠ some '/' ∧ fieldSeparator ∉ path := by
  unfold isResultPath at h
  rw [Bool.and_eq_true, Bool.and_eq_true, Bool.and_eq_true, beq_iff_eq, bne_iff_ne] at h
  obtain ⟨⟨⟨hhead, hlast⟩, -⟩, hplain⟩ := h
  refine ⟨hhead, hlast, fun hmem => ?_⟩
  have hnone := List.any_eq_false.mp (Bool.not_eq_true' _ ▸ hplain) fieldSeparator hmem
  exact hnone (by decide)

theorem head_showNat (n : Nat) : (showNat n).head? ≠ some '/' := by
  intro h
  exact absurd (showNat_numeral n _ (List.mem_of_mem_head? h)) (by decide)

/-- A record is read from its fields. -/
theorem parseContentRecord_fields {request : LogSearchRequest} {redactor : Redactor}
    {record first path value text : Text} {fields others : List Text} {lineNumber : Nat}
    {kind : LogLineKind} (hfields : fieldsOf 4 record = first :: fields)
    (hlocate : locate request first fields = .ok (path, value, kind.asStr :: text :: others))
    (hpath : isResultPath path = true) (hline : parseU64 value = some lineNumber) :
    parseContentRecord request redactor record
      = .ok { path := path, lineNumber := lineNumber, kind := kind,
              timestamp := extractTimestamp text, text := redactor.redact text } := by
  have hvalid : validateResultPath path = .ok () := if_pos hpath
  have hnumber : parseLineNumber value = .ok lineNumber := by
    unfold parseLineNumber
    rw [hline]
  unfold parseContentRecord
  rw [hfields]
  exact bind_eq_ok.mpr ⟨_, rfl, bind_eq_ok.mpr ⟨_, hlocate, bind_eq_ok.mpr ⟨_, hvalid,
    bind_eq_ok.mpr ⟨_, hnumber, bind_eq_ok.mpr ⟨_, rfl, bind_eq_ok.mpr ⟨_, parseKind_asStr kind,
      rfl⟩⟩⟩⟩⟩⟩

/-- **A record with an accepted path is read.** -/
theorem parseContentRecord_payload {request : LogSearchRequest} (redactor : Redactor)
    (record : LogRecord) (hline : record.lineNumber < 2 ^ 64)
    (hsought : request.path ≠ [] → record.path = request.path)
    (hpath : isResultPath record.path = true) :
    parseContentRecord request redactor (record.payload request)
      = .ok (record.readAs request redactor) := by
  have hnumber : parseU64 (showNat record.lineNumber) = some record.lineNumber :=
    parseUnsigned_toDigits hline
  obtain ⟨hslash, -, hseparator⟩ := of_isResultPath hpath
  unfold LogRecord.payload LogRecord.readAs LogRecord.seen
  rw [LogRecord.fields_eq]
  by_cases hsmart : request.path.isEmpty = true
  · have hfields : fieldsOf 4 (record.path ++ fieldSeparator :: (showNat record.lineNumber
          ++ fieldSeparator :: (record.kind.asStr ++ fieldSeparator :: record.text)))
        = [record.path, showNat record.lineNumber, record.kind.asStr, record.text] := by
      rw [fieldsOf_cons 2 hseparator, fieldsOf_cons 1 separator_not_numeral,
        fieldsOf_cons 0 (separator_not_kind _)]
      rfl
    rw [if_pos hsmart, if_pos hsmart]
    exact parseContentRecord_fields hfields (if_pos hslash) hpath hnumber
  · obtain ⟨others, hothers⟩ := fieldsOf_first 0 record.text
    have hfields : fieldsOf 4 (showNat record.lineNumber
          ++ fieldSeparator :: (record.kind.asStr ++ fieldSeparator :: record.text))
        = showNat record.lineNumber :: record.kind.asStr
          :: (record.text.takeWhile fun c => c != fieldSeparator) :: others := by
      rw [fieldsOf_cons 2 separator_not_numeral, fieldsOf_cons 1 (separator_not_kind _), hothers]
    rw [if_neg hsmart, if_neg hsmart]
    have hlocate : locate request (showNat record.lineNumber) (record.kind.asStr
          :: (record.text.takeWhile fun c => c != fieldSeparator) :: others)
        = .ok (record.path, showNat record.lineNumber, record.kind.asStr
          :: (record.text.takeWhile fun c => c != fieldSeparator) :: others) := by
      rw [hsought fun hnil => hsmart (List.isEmpty_iff.mpr hnil)]
      exact if_neg (head_showNat _)
    exact parseContentRecord_fields hfields hlocate hpath hnumber

/-! ## §4. A record with another path. -/

/-- A path that, with the fields after it, is read as a match in a file of its own. -/
def ReadsAsMatch (path : Text) : Prop :=
  ∃ file value others, path ++ [fieldSeparator] = file ++ fieldSeparator :: (value
      ++ fieldSeparator :: (LogLineKind.matched.asStr ++ fieldSeparator :: others))
    ∧ isResultPath file = true ∧ (parseU64 value).isSome = true

theorem separator_not_value {value : Text} (h : (parseU64 value).isSome = true) :
    fieldSeparator ∉ value := by
  intro hmem
  rcases digits_of_parseUnsigned h _ hmem with hplus | hdigit
  · exact absurd hplus (by decide)
  · exact absurd hdigit (by decide)

/-- What is read although the path is not accepted. -/
theorem parseContentRecord_misread {request : LogSearchRequest} (redactor : Redactor)
    (record : LogRecord) (hsmart : request.path = []) (h : ReadsAsMatch record.path) :
    ∃ item, parseContentRecord request redactor (record.payload request) = .ok item
      ∧ item.kind = .matched := by
  obtain ⟨file, value, others, hsplit, hfile, hvalue⟩ := h
  obtain ⟨lineNumber, hline⟩ := Option.isSome_iff_exists.mp hvalue
  obtain ⟨hslash, -, hseparator⟩ := of_isResultPath hfile
  have hpayload : record.payload request = file ++ fieldSeparator :: (value
      ++ fieldSeparator :: (LogLineKind.matched.asStr
        ++ fieldSeparator :: (others ++ record.fields))) := by
    have happend := congrArg (· ++ record.fields) hsplit
    simp only [List.append_assoc, List.cons_append] at happend
    unfold LogRecord.payload
    rw [hsmart]
    exact happend
  have hfields : fieldsOf 4 (record.payload request)
      = [file, value, LogLineKind.matched.asStr, others ++ record.fields] := by
    rw [hpayload, fieldsOf_cons 2 hseparator, fieldsOf_cons 1 (separator_not_value hvalue),
      fieldsOf_cons 0 (separator_not_kind _)]
    rfl
  exact ⟨_, parseContentRecord_fields hfields (if_pos hslash) hfile hline, rfl⟩

/-- What the fields of a record that is read are. -/
theorem parseContentRecord_ok {request : LogSearchRequest} {redactor : Redactor} {record : Text}
    {item : LogMatch} (h : parseContentRecord request redactor record = .ok item) :
    ∃ first fields value others, fieldsOf 4 record = first :: fields
      ∧ locate request first fields = .ok (item.path, value, item.kind.asStr :: others)
      ∧ isResultPath item.path = true ∧ (parseU64 value).isSome = true := by
  unfold parseContentRecord at h
  obtain ⟨⟨first, fields⟩, hfirst, h⟩ := bind_eq_ok.mp h
  obtain ⟨⟨path, value, rest⟩, hlocate, h⟩ := bind_eq_ok.mp h
  obtain ⟨_, hpath, h⟩ := bind_eq_ok.mp h
  obtain ⟨lineNumber, hline, h⟩ := bind_eq_ok.mp h
  obtain ⟨⟨kindValue, others⟩, hnext, h⟩ := bind_eq_ok.mp h
  obtain ⟨kind, hkind, h⟩ := bind_eq_ok.mp h
  obtain ⟨⟨text, _⟩, -, h⟩ := bind_eq_ok.mp h
  obtain rfl := Except.ok.inj h
  have hfields : fieldsOf 4 record = first :: fields := by
    unfold nextField at hfirst
    split at hfirst
    next => cases hfirst
    next heq =>
      obtain ⟨rfl, rfl⟩ := Prod.mk.inj (Except.ok.inj hfirst)
      exact heq
  have hrest : rest = kind.asStr :: others := by
    unfold nextField at hnext
    split at hnext
    next => cases hnext
    next =>
      obtain ⟨rfl, rfl⟩ := Prod.mk.inj (Except.ok.inj hnext)
      unfold parseKind at hkind
      split at hkind
      next heq =>
        obtain rfl := Except.ok.inj hkind
        rw [heq]
        rfl
      next =>
        split at hkind
        next heq =>
          obtain rfl := Except.ok.inj hkind
          rw [heq]
          rfl
        next => cases hkind
  have hvalue : (parseU64 value).isSome = true := by
    unfold parseLineNumber at hline
    split at hline
    next heq => exact Option.isSome_iff_exists.mpr ⟨_, heq⟩
    next => cases hline
  exact ⟨first, fields, value, others, hfields, hrest ▸ hlocate, validateResultPath_ok hpath,
    hvalue⟩

/-- A path before another field is read up to its first separator. -/
theorem fieldsOf_split (count : Nat) {path rest : Text} (h : fieldSeparator ∈ path) :
    ∃ file after, path = file ++ fieldSeparator :: after ∧ fieldSeparator ∉ file
      ∧ fieldsOf (count + 2) (path ++ fieldSeparator :: rest)
        = file :: fieldsOf (count + 1) (after ++ fieldSeparator :: rest) := by
  obtain ⟨file, after, rfl, hfile⟩ := List.eq_append_cons_of_mem h
  refine ⟨file, after, rfl, hfile, ?_⟩
  rw [List.append_assoc, List.cons_append, fieldsOf_cons count hfile]

/-- **A record whose path is not accepted is read as a match only one way.** -/
theorem readsAsMatch_of_parse {request : LogSearchRequest} {redactor : Redactor}
    (record : LogRecord) {item : LogMatch}
    (hsought : request.path ≠ [] → record.path = request.path)
    (hpath : ¬ isResultPath record.path = true)
    (h : parseContentRecord request redactor (record.payload request) = .ok item)
    (hkind : item.kind = .matched) : request.path = [] ∧ ReadsAsMatch record.path := by
  obtain ⟨first, fields, value, others, hfields, hlocate, haccepted, hvalue⟩ :=
    parseContentRecord_ok h
  have hsmart : request.path = [] := by
    by_contra hfile
    have hpayload : record.payload request = showNat record.lineNumber
        ++ fieldSeparator :: (record.kind.asStr ++ fieldSeparator :: record.text) := by
      unfold LogRecord.payload
      rw [if_neg fun hempty => hfile (List.isEmpty_iff.mp hempty), LogRecord.fields_eq]
    rw [hpayload, fieldsOf_cons 2 separator_not_numeral] at hfields
    obtain ⟨rfl, -⟩ := List.cons.inj hfields
    unfold locate at hlocate
    rw [if_neg (head_showNat _)] at hlocate
    obtain ⟨hfrom, -⟩ := Prod.mk.inj (Except.ok.inj hlocate)
    exact hpath (hsought hfile ▸ hfrom ▸ haccepted)
  refine ⟨hsmart, ?_⟩
  have hpayload : record.payload request = record.path ++ fieldSeparator
      :: (showNat record.lineNumber
        ++ fieldSeparator :: (record.kind.asStr ++ fieldSeparator :: record.text)) := by
    unfold LogRecord.payload
    rw [hsmart, LogRecord.fields_eq]
    rfl
  -- the first field is the path of the result
  have hown : first = item.path ∧ fields = value :: LogLineKind.matched.asStr :: others := by
    unfold locate at hlocate
    split at hlocate
    next =>
      unfold nextField at hlocate
      cases fields with
      | nil => cases hlocate
      | cons field fields =>
          obtain ⟨rfl, hrest⟩ := Prod.mk.inj (Except.ok.inj hlocate)
          obtain ⟨rfl, rfl⟩ := Prod.mk.inj hrest
          exact ⟨rfl, hkind ▸ rfl⟩
    next =>
      obtain ⟨hfrom, -⟩ := Prod.mk.inj (Except.ok.inj hlocate)
      rw [← hfrom, hsmart] at haccepted
      cases haccepted
  obtain ⟨rfl, rfl⟩ := hown
  rw [hpayload] at hfields
  by_cases hone : fieldSeparator ∈ record.path
  · obtain ⟨file, after, hsplit, -, hread⟩ := fieldsOf_split 2 hone
    obtain ⟨rfl, hsecond⟩ := List.cons.inj (hread.symm.trans hfields)
    by_cases htwo : fieldSeparator ∈ after
    · obtain ⟨line, after', hsplit', -, hread'⟩ := fieldsOf_split 1 htwo
      obtain ⟨rfl, hthird⟩ := List.cons.inj (hread'.symm.trans hsecond)
      by_cases hthree : fieldSeparator ∈ after'
      · obtain ⟨kind, rest, hsplit'', -, hread''⟩ := fieldsOf_split 0 hthree
        obtain ⟨rfl, -⟩ := List.cons.inj (hread''.symm.trans hthird)
        refine ⟨_, _, rest ++ [fieldSeparator], ?_, haccepted, hvalue⟩
        rw [hsplit, hsplit', hsplit'']
        simp only [List.append_assoc, List.cons_append]
      · obtain ⟨rfl, -⟩ := List.cons.inj ((fieldsOf_cons 0 hthree _).symm.trans hthird)
        refine ⟨_, _, [], ?_, haccepted, hvalue⟩
        rw [hsplit, hsplit']
        simp only [List.append_assoc, List.cons_append]
    · -- the number of the line would have to be the kind
      obtain ⟨-, hthird⟩ := List.cons.inj ((fieldsOf_cons 1 htwo _).symm.trans hsecond)
      obtain ⟨hnumeral, -⟩ := List.cons.inj
        ((fieldsOf_cons 0 separator_not_numeral _).symm.trans hthird)
      have hm : 'm' ∈ showNat record.lineNumber := hnumeral ▸ List.mem_cons_self
      exact absurd (showNat_numeral _ _ hm) (by decide)
  · obtain ⟨hfirst, -⟩ := List.cons.inj ((fieldsOf_cons 2 hone _).symm.trans hfields)
    exact absurd (hfirst ▸ haccepted) hpath

/-! ## §5. Searches of contents. -/

/-- A record that the search of a request may print. -/
structure LogRecord.Printable (request : LogSearchRequest) (redactor : Redactor)
    (record : LogRecord) : Prop where
  pathLine : '\n' ∉ record.path
  textLine : '\n' ∉ record.text
  lineNumber : record.lineNumber < 2 ^ 64
  sought : request.path ≠ [] → record.path = request.path
  untouched : Untouched redactor record.text

/-- The result that a record should be read as. -/
def LogRecord.logMatch (record : LogRecord) : LogMatch where
  path := record.path
  lineNumber := record.lineNumber
  kind := record.kind
  timestamp := extractTimestamp record.text
  text := record.text

theorem LogRecord.logMatch_text (record : LogRecord) : record.logMatch.text = record.text := rfl

def LogRecord.item (record : LogRecord) : SearchResultItem := .content record.logMatch

/-- The records up to a number of matches; the lines around matches are not counted. -/
def upTo : Nat → List LogRecord → List LogRecord
  | _, [] => []
  | room, record :: records =>
      match record.kind, room with
      | .context, room => record :: upTo room records
      | .matched, 0 => upTo 0 records
      | .matched, room + 1 => record :: upTo room records

/-- The matches past that number. -/
def beyond : Nat → List LogRecord → List LogRecord
  | _, [] => []
  | room, record :: records =>
      match record.kind, room with
      | .context, room => beyond room records
      | .matched, 0 => record :: beyond 0 records
      | .matched, room + 1 => beyond room records

/-- A record that is returned, but for a carriage return at its end. -/
structure LogRecord.Kept (request : LogSearchRequest) (record : LogRecord) : Prop where
  path : isResultPath record.path = true
  text : request.path ≠ [] → fieldSeparator ∉ record.text
  inRange : record.kind = .matched → withinTimeRange (extractTimestamp record.text) request = true

/-- A record that is returned as it was printed. -/
structure LogRecord.Faithful (request : LogSearchRequest) (record : LogRecord) : Prop
    extends record.Kept request where
  last : record.text.getLast? ≠ some '\r'

/-- A match past the limit that is passed over. -/
def LogRecord.Skipped (request : LogSearchRequest) (record : LogRecord) : Prop :=
  isResultPath record.path = true ∨ (request.path = [] ∧ ReadsAsMatch record.path)

theorem upTo_subset {room : Nat} {records : List LogRecord} : upTo room records ⊆ records := by
  intro kept hmem
  induction records generalizing room with
  | nil => exact hmem
  | cons record records ih =>
      unfold upTo at hmem
      split at hmem
      next =>
        rcases List.mem_cons.mp hmem with rfl | hmem
        · exact List.mem_cons_self
        · exact List.mem_cons_of_mem _ (ih hmem)
      next => exact List.mem_cons_of_mem _ (ih hmem)
      next =>
        rcases List.mem_cons.mp hmem with rfl | hmem
        · exact List.mem_cons_self
        · exact List.mem_cons_of_mem _ (ih hmem)

theorem extractTimestamp_stripReturn (text : Text) :
    extractTimestamp (stripReturn text) = extractTimestamp text := by
  by_cases hlast : text.getLast? = some '\r'
  · obtain ⟨head, rfl⟩ := List.getLast?_eq_some_iff.mp hlast
    have hstrip : stripReturn (head ++ ['\r']) = head := by
      unfold stripReturn
      rw [if_pos hlast, List.dropLast_concat]
    -- the return is a blank, at the end of a word or of the blanks before it
    have hcandidate : ((head ++ ['\r']).dropWhile isWhitespace).takeWhile (fun c => !isWhitespace c)
        = (head.dropWhile isWhitespace).takeWhile fun c => !isWhitespace c := by
      rw [List.dropWhile_append]
      split
      next hblank =>
        rw [List.isEmpty_iff.mp hblank]
        decide
      next =>
        rw [List.takeWhile_append]
        split
        next hall =>
          rw [List.takeWhile_cons_of_neg (by decide), List.append_nil,
            (List.takeWhile_prefix _).eq_of_length hall]
        next => rfl
    unfold extractTimestamp
    rw [hstrip, hcandidate]
  · rw [stripReturn_of_last hlast]

/-- **What a result comes from.** -/
theorem parseContentLines_mem {request : LogSearchRequest} {redactor : Redactor}
    {remaining : List Text} {matched : Nat} {items : List SearchResultItem}
    (h : parseContentLines request redactor matched remaining = .ok items) (item : LogMatch)
    (hmem : SearchResultItem.content item ∈ items) :
    (∃ line ∈ remaining, ∃ record, recordPrefix.isPrefixOf? line = some record
      ∧ parseContentRecord request redactor record = .ok item)
      ∧ (item.kind = .matched → withinTimeRange item.timestamp request = true) := by
  induction remaining generalizing matched items with
  | nil =>
      obtain rfl := Except.ok.inj h
      exact absurd hmem List.not_mem_nil
  | cons line rest ih =>
      have hlater : ∀ {matched others},
          parseContentLines request redactor matched rest = .ok others →
          SearchResultItem.content item ∈ others →
          (∃ line' ∈ line :: rest, ∃ record, recordPrefix.isPrefixOf? line' = some record
            ∧ parseContentRecord request redactor record = .ok item)
            ∧ (item.kind = .matched → withinTimeRange item.timestamp request = true) := by
        intro matched others hothers hin
        obtain ⟨⟨line', hline', hread⟩, hrange⟩ := ih hothers hin
        exact ⟨⟨line', List.mem_cons_of_mem _ hline', hread⟩, hrange⟩
      unfold parseContentLines at h
      split at h
      next => exact hlater h hmem
      next record hstarts =>
        obtain ⟨found, hfound, h⟩ := bind_eq_ok.mp h
        split at h
        next hkind =>
          obtain ⟨others, hothers, h⟩ := bind_eq_ok.mp h
          obtain rfl := Except.ok.inj h
          rcases List.mem_cons.mp hmem with heq | hin
          · obtain rfl := SearchResultItem.content.inj heq
            refine ⟨⟨line, List.mem_cons_self, record, hstarts, hfound⟩, fun hmatched => ?_⟩
            rw [hkind] at hmatched
            cases hmatched
          · exact hlater hothers hin
        next =>
          split at h
          next htakes =>
            obtain ⟨others, hothers, h⟩ := bind_eq_ok.mp h
            obtain rfl := Except.ok.inj h
            rcases List.mem_cons.mp hmem with heq | hin
            · obtain rfl := SearchResultItem.content.inj heq
              exact ⟨⟨line, List.mem_cons_self, record, hstarts, hfound⟩,
                fun _ => (Bool.and_eq_true_iff.mp htakes).1⟩
            · exact hlater hothers hin
          next => exact hlater h hmem

/-- The lines that are read when records are printed. -/
def readLines (request : LogSearchRequest) (records : List LogRecord) : List Text :=
  records.map fun record => recordPrefix ++ record.received.payload request

/-- What a record with an accepted path and no separator to lose is read as. -/
theorem LogRecord.Printable.readAs_text {request : LogSearchRequest} {redactor : Redactor}
    {record : LogRecord} (h : record.Printable request redactor)
    (htext : request.path ≠ [] → fieldSeparator ∉ record.text) :
    SearchResultItem.content (record.received.readAs request redactor)
      = LogRecord.item { record with text := stripReturn record.text } := by
  have hstarts := stripReturn_start record.text
  have hseen : record.received.seen request = stripReturn record.text := by
    unfold LogRecord.seen
    split
    · rfl
    next hfile =>
      refine List.takeWhile_eq_self_iff.mpr fun c hc => bne_iff_ne.mpr ?_
      rintro rfl
      exact htext (fun hnil => hfile (List.isEmpty_iff.mpr hnil)) (hstarts.subset hc)
  unfold LogRecord.readAs LogRecord.item LogRecord.logMatch
  rw [hseen, h.untouched _ hstarts]
  rfl

theorem parseContentLines_cons {request : LogSearchRequest} {redactor : Redactor}
    {record : Text} {item : LogMatch} (h : parseContentRecord request redactor record = .ok item)
    (matched : Nat) (rest : List Text) :
    parseContentLines request redactor matched ((recordPrefix ++ record) :: rest)
      = match item.kind with
        | .context => do
            let items ← parseContentLines request redactor matched rest
            .ok (.content item :: items)
        | .matched =>
            if takesMatch request matched item then do
              let items ← parseContentLines request redactor (matched + 1) rest
              .ok (.content item :: items)
            else parseContentLines request redactor matched rest := by
  conv_lhs => unfold parseContentLines
  rw [isPrefixOf?_append]
  show (parseContentRecord request redactor record >>= _) = _
  rw [h]
  rfl

/-- **Records that can be kept or skipped are returned up to the limit.** -/
theorem parseContentLines_survive {request : LogSearchRequest} {redactor : Redactor}
    {records : List LogRecord} (matched : Nat)
    (hprint : ∀ record ∈ records, record.Printable request redactor)
    (hkept : ∀ record ∈ upTo (request.limit - matched) records, record.Faithful request)
    (hskip : ∀ record ∈ beyond (request.limit - matched) records, record.Skipped request) :
    parseContentLines request redactor matched (readLines request records)
      = .ok ((upTo (request.limit - matched) records).map LogRecord.item) := by
  induction records generalizing matched with
  | nil => rfl
  | cons record records ih =>
      obtain ⟨hfirst, hprint⟩ := List.forall_mem_cons.mp hprint
      have hread : ∀ h : record.Faithful request,
          parseContentRecord request redactor (record.received.payload request)
              = .ok (record.received.readAs request redactor)
            ∧ SearchResultItem.content (record.received.readAs request redactor) = record.item := by
        intro hfaithful
        refine ⟨parseContentRecord_payload redactor record.received hfirst.lineNumber hfirst.sought
          hfaithful.path, ?_⟩
        rw [hfirst.readAs_text hfaithful.text, stripReturn_of_last hfaithful.last]
      show parseContentLines request redactor matched
        ((recordPrefix ++ record.received.payload request) :: readLines request records) = _
      unfold upTo at hkept ⊢
      unfold beyond at hskip
      cases hkind : record.kind with
      | context =>
          rw [hkind] at hkept hskip
          obtain ⟨hfaithful, hkept⟩ := List.forall_mem_cons.mp hkept
          obtain ⟨hparsed, hitem⟩ := hread hfaithful
          have hcontext : (record.received.readAs request redactor).kind = .context := hkind
          rw [parseContentLines_cons hparsed, hcontext]
          exact bind_eq_ok.mpr ⟨_, ih _ hprint hkept hskip, by rw [hitem]; rfl⟩
      | matched =>
          cases hroom : request.limit - matched with
          | zero =>
              rw [hkind, hroom] at hkept hskip
              obtain ⟨hskipped, hskip⟩ := List.forall_mem_cons.mp hskip
              have hparsed : ∃ item, parseContentRecord request redactor
                  (record.received.payload request) = .ok item ∧ item.kind = .matched := by
                rcases hskipped with hpath | ⟨hsmart, hreads⟩
                · exact ⟨_, parseContentRecord_payload redactor record.received
                    hfirst.lineNumber hfirst.sought hpath, hkind⟩
                · exact parseContentRecord_misread redactor record.received hsmart hreads
              obtain ⟨item, hparsed, hmatched⟩ := hparsed
              have hfull : ¬ takesMatch request matched item = true := by
                intro htakes
                have hless := of_decide_eq_true (Bool.and_eq_true_iff.mp htakes).2
                omega
              rw [parseContentLines_cons hparsed, hmatched]
              dsimp only
              rw [if_neg hfull]
              have hrest := ih matched hprint
              rw [hroom] at hrest
              exact hrest hkept hskip
          | succ room =>
              rw [hkind, hroom] at hkept hskip
              obtain ⟨hfaithful, hkept⟩ := List.forall_mem_cons.mp hkept
              obtain ⟨hparsed, hitem⟩ := hread hfaithful
              have hmatched : (record.received.readAs request redactor).kind = .matched := hkind
              have htimestamp : (record.received.readAs request redactor).timestamp
                  = extractTimestamp record.text :=
                congrArg LogMatch.timestamp (SearchResultItem.content.inj hitem)
              have htakes : takesMatch request matched
                  (record.received.readAs request redactor) = true := by
                unfold takesMatch
                rw [htimestamp, hfaithful.inRange hkind, Bool.true_and, decide_eq_true_eq]
                omega
              have hrest := ih (matched + 1) hprint
              rw [show request.limit - (matched + 1) = room by omega] at hrest
              rw [parseContentLines_cons hparsed, hmatched]
              dsimp only
              rw [if_pos htakes]
              exact bind_eq_ok.mpr ⟨_, hrest hkept hskip, by rw [hitem]; rfl⟩

/-- **A record that is returned can be kept.** -/
theorem kept_of_returned {request : LogSearchRequest} {redactor : Redactor}
    {records : List LogRecord} {matched : Nat} {items : List SearchResultItem}
    (hprint : ∀ record ∈ records, record.Printable request redactor)
    (h : parseContentLines request redactor matched (readLines request records) = .ok items)
    {record : LogRecord} (hsought : request.path ≠ [] → record.path = request.path)
    (hmem : record.item ∈ items) : record.Kept request := by
  obtain ⟨⟨line, hline, payload, hstarts, hparsed⟩, hrange⟩ :=
    parseContentLines_mem h record.logMatch hmem
  have hpath : isResultPath record.path = true := parseContentRecord_path hparsed
  refine ⟨hpath, fun hfile hseparator => ?_, hrange⟩
  obtain ⟨printed, hprinted, rfl⟩ := List.mem_map.mp hline
  rw [isPrefixOf?_append] at hstarts
  obtain rfl := Option.some.inj hstarts
  have hprinted := hprint printed hprinted
  -- one file's records have one path, and its texts are read up to a separator
  have hsame : printed.path = record.path := (hprinted.sought hfile).trans (hsought hfile).symm
  have haccepted : isResultPath printed.path = true := by
    rw [hsame]
    exact hpath
  have hread := parseContentRecord_payload redactor printed.received
    hprinted.lineNumber hprinted.sought haccepted
  have htext := congrArg LogMatch.text (Except.ok.inj (hread.symm.trans hparsed))
  rw [LogRecord.readAs_text, LogRecord.logMatch_text] at htext
  have hseen : printed.received.seen request
      = (stripReturn printed.text).takeWhile fun c => c != fieldSeparator :=
    if_neg fun hempty => hfile (List.isEmpty_iff.mp hempty)
  have hstarts : printed.received.seen request <+: printed.text := by
    rw [hseen]
    exact (List.takeWhile_prefix _).trans (stripReturn_start _)
  rw [hprinted.untouched _ hstarts, hseen] at htext
  rw [← htext] at hseparator
  have hnot := List.mem_takeWhile_imp hseparator
  exact absurd hnot (by decide)

/-- A line whose record is not read refuses the output. -/
theorem parseContentLines_read {request : LogSearchRequest} {redactor : Redactor}
    {record : Text} {rest : List Text} {matched : Nat} {items : List SearchResultItem}
    (h : parseContentLines request redactor matched ((recordPrefix ++ record) :: rest)
      = .ok items) :
    ∃ item, parseContentRecord request redactor record = .ok item :=
  parseContentLines_isOk_iff.mp ⟨items, h⟩ _ List.mem_cons_self record
    (isPrefixOf?_append recordPrefix record)

/-- The lines around matches are all returned. -/
theorem length_contexts_le {request : LogSearchRequest} {redactor : Redactor}
    {records : List LogRecord} {matched : Nat} {items : List SearchResultItem}
    (hprint : ∀ record ∈ records, record.Printable request redactor)
    (hpath : ∀ record ∈ upTo 0 records, isResultPath record.path = true)
    (h : parseContentLines request redactor matched (readLines request records) = .ok items) :
    (upTo 0 records).length ≤ items.length := by
  induction records generalizing matched items with
  | nil => exact Nat.zero_le _
  | cons record records ih =>
      obtain ⟨hfirst, hprint⟩ := List.forall_mem_cons.mp hprint
      obtain ⟨item, hitem⟩ := parseContentLines_read h
      have hlines : readLines request (record :: records)
        = (recordPrefix ++ record.received.payload request) :: readLines request records := rfl
      rw [hlines, parseContentLines_cons hitem] at h
      unfold upTo at hpath ⊢
      cases hkind : record.kind with
      | context =>
          rw [hkind] at hpath
          obtain ⟨haccepted, hpath⟩ := List.forall_mem_cons.mp hpath
          have hparsed := parseContentRecord_payload redactor record.received
            hfirst.lineNumber hfirst.sought haccepted
          obtain rfl := Except.ok.inj (hparsed.symm.trans hitem)
          rw [show (record.received.readAs request redactor).kind = .context from hkind] at h
          obtain ⟨others, hothers, h⟩ := bind_eq_ok.mp h
          obtain rfl := Except.ok.inj h
          exact Nat.succ_le_succ (ih hprint hpath hothers)
      | matched =>
          rw [hkind] at hpath
          cases hread : item.kind with
          | context =>
              rw [hread] at h
              obtain ⟨others, hothers, h⟩ := bind_eq_ok.mp h
              obtain rfl := Except.ok.inj h
              exact Nat.le_succ_of_le (ih hprint hpath hothers)
          | matched =>
              rw [hread] at h
              dsimp only at h
              split at h
              · obtain ⟨others, hothers, h⟩ := bind_eq_ok.mp h
                obtain rfl := Except.ok.inj h
                exact Nat.le_succ_of_le (ih hprint hpath hothers)
              · exact ih hprint hpath h

/-- **Only records that are faithful, and matches that are passed over, are returned as they were
printed.** -/
theorem survive_of_returned {request : LogSearchRequest} {redactor : Redactor}
    {records : List LogRecord} (matched : Nat)
    (hprint : ∀ record ∈ records, record.Printable request redactor)
    (hkept : ∀ record ∈ upTo (request.limit - matched) records, record.Kept request)
    (h : parseContentLines request redactor matched (readLines request records)
      = .ok ((upTo (request.limit - matched) records).map LogRecord.item)) :
    (∀ record ∈ upTo (request.limit - matched) records, record.text.getLast? ≠ some '\r')
      ∧ ∀ record ∈ beyond (request.limit - matched) records, record.Skipped request := by
  induction records generalizing matched with
  | nil => exact ⟨fun _ hmem => absurd hmem List.not_mem_nil,
      fun _ hmem => absurd hmem List.not_mem_nil⟩
  | cons record records ih =>
      obtain ⟨hfirst, hprint⟩ := List.forall_mem_cons.mp hprint
      obtain ⟨item, hitem⟩ := parseContentLines_read h
      have hread : record.Kept request → item = record.received.readAs request redactor
          ∧ SearchResultItem.content (record.received.readAs request redactor)
            = LogRecord.item { record with text := stripReturn record.text } := by
        intro hkeep
        have hparsed := parseContentRecord_payload redactor record.received
          hfirst.lineNumber hfirst.sought hkeep.path
        exact ⟨Except.ok.inj (hitem.symm.trans hparsed), hfirst.readAs_text hkeep.text⟩
      have hlast : LogRecord.item { record with text := stripReturn record.text } = record.item →
          record.text.getLast? ≠ some '\r' := by
        intro heq hreturn
        have htext : stripReturn record.text = record.text :=
          congrArg LogMatch.text (SearchResultItem.content.inj heq)
        have hstrip : stripReturn record.text = record.text.dropLast := if_pos hreturn
        have hlength := congrArg List.length (hstrip.symm.trans htext)
        rw [List.length_dropLast] at hlength
        have hempty : record.text = [] := List.length_eq_zero_iff.mp (by omega)
        rw [hempty] at hreturn
        cases hreturn
      have hlines : readLines request (record :: records)
        = (recordPrefix ++ record.received.payload request) :: readLines request records := rfl
      rw [hlines, parseContentLines_cons hitem] at h
      unfold upTo at hkept h ⊢
      unfold beyond
      cases hkind : record.kind with
      | context =>
          rw [hkind] at hkept h
          obtain ⟨hkeep, hkept⟩ := List.forall_mem_cons.mp hkept
          obtain ⟨rfl, hitem'⟩ := hread hkeep
          rw [show (record.received.readAs request redactor).kind = .context from hkind] at h
          obtain ⟨others, hothers, h⟩ := bind_eq_ok.mp h
          obtain ⟨hhead, rfl⟩ := List.cons.inj (Except.ok.inj h)
          obtain ⟨hlasts, hskips⟩ := ih _ hprint hkept hothers
          exact ⟨List.forall_mem_cons.mpr ⟨hlast (hitem'.symm.trans hhead), hlasts⟩, hskips⟩
      | matched =>
          cases hroom : request.limit - matched with
          | zero =>
              rw [hkind, hroom] at hkept h
              cases hread : item.kind with
              | context =>
                  -- it would be returned before all the lines around matches
                  rw [hread] at h
                  obtain ⟨others, hothers, h⟩ := bind_eq_ok.mp h
                  have hlength := congrArg List.length (Except.ok.inj h)
                  rw [List.length_cons, List.length_map] at hlength
                  have hmany := length_contexts_le hprint (fun record hmem =>
                    (hkept record hmem).path) hothers
                  dsimp only at hlength
                  omega
              | matched =>
                  have hskipped : record.Skipped request := by
                    by_cases hpath : isResultPath record.path = true
                    · exact .inl hpath
                    · exact .inr (readsAsMatch_of_parse record.received
                        hfirst.sought hpath hitem hread)
                  have hfull : ¬ takesMatch request matched item = true := by
                    intro htakes
                    have hless := of_decide_eq_true (Bool.and_eq_true_iff.mp htakes).2
                    omega
                  rw [hread] at h
                  dsimp only at h
                  rw [if_neg hfull] at h
                  have hrest := ih matched hprint
                  rw [hroom] at hrest
                  obtain ⟨hlasts, hskips⟩ := hrest hkept h
                  exact ⟨hlasts, List.forall_mem_cons.mpr ⟨hskipped, hskips⟩⟩
          | succ room =>
              rw [hkind, hroom] at hkept h
              obtain ⟨hkeep, hkept⟩ := List.forall_mem_cons.mp hkept
              obtain ⟨rfl, hitem'⟩ := hread hkeep
              have htimestamp : (record.received.readAs request redactor).timestamp
                  = extractTimestamp (stripReturn record.text) :=
                congrArg LogMatch.timestamp (SearchResultItem.content.inj hitem')
              have htakes : takesMatch request matched
                  (record.received.readAs request redactor) = true := by
                unfold takesMatch
                rw [htimestamp, extractTimestamp_stripReturn, hkeep.inRange hkind, Bool.true_and,
                  decide_eq_true_eq]
                omega
              rw [show (record.received.readAs request redactor).kind = .matched from hkind] at h
              dsimp only at h
              rw [if_pos htakes] at h
              obtain ⟨others, hothers, h⟩ := bind_eq_ok.mp h
              obtain ⟨hhead, rfl⟩ := List.cons.inj (Except.ok.inj h)
              have hrest := ih (matched + 1) hprint
              rw [show request.limit - (matched + 1) = room by omega] at hrest
              obtain ⟨hlasts, hskips⟩ := hrest hkept hothers
              exact ⟨List.forall_mem_cons.mpr ⟨hlast (hitem'.symm.trans hhead), hlasts⟩, hskips⟩

theorem LogRecord.Printable.line {request : LogSearchRequest} {redactor : Redactor}
    {record : LogRecord} (h : record.Printable request redactor) :
    '\n' ∉ record.line request := by
  have hnumber : '\n' ∉ showNat record.lineNumber := fun hmem =>
    absurd (showNat_numeral _ _ hmem) (by decide)
  have hkind : '\n' ∉ record.kind.asStr := by cases record.kind <;> decide
  have hfields : '\n' ∉ record.fields := by
    rw [LogRecord.fields_eq, List.mem_append, List.mem_cons, List.mem_append, List.mem_cons]
    rintro (hmem | hmem | hmem | hmem | hmem)
    · exact hnumber hmem
    · exact absurd hmem (by decide)
    · exact hkind hmem
    · exact absurd hmem (by decide)
    · exact h.textLine hmem
  have hmark : '\n' ∉ recordPrefix := by decide
  unfold LogRecord.line LogRecord.withPath LogRecord.inFile
  split
  · rw [List.mem_append, List.mem_append, List.mem_cons]
    rintro ((hmem | hmem) | hmem | hmem)
    · exact hmark hmem
    · exact h.pathLine hmem
    · exact absurd hmem (by decide)
    · exact hfields hmem
  · rw [List.mem_append]
    rintro (hmem | hmem)
    · exact hmark hmem
    · exact hfields hmem

/-- **A search of contents returns its records exactly when those within the limit are faithful and
those past it can be passed over.** -/
theorem content_records_survive {request : LogSearchRequest} {redactor : Redactor}
    {records : List LogRecord}
    (hprint : ∀ record ∈ records, record.Printable request redactor) :
    parseContentLines request redactor 0
        (lines (printLines (records.map (LogRecord.line request))))
      = .ok ((upTo request.limit records).map LogRecord.item)
    ↔ (∀ record ∈ upTo request.limit records, record.Faithful request)
      ∧ ∀ record ∈ beyond request.limit records, record.Skipped request := by
  have hlines : lines (printLines (records.map (LogRecord.line request)))
      = readLines request records := by
    rw [lines_printLines fun line hline => by
      obtain ⟨record, hmem, rfl⟩ := List.mem_map.mp hline
      exact (hprint record hmem).line, List.map_map]
    exact List.map_congr_left fun record _ => stripReturn_line request record
  rw [hlines]
  constructor
  · intro h
    have hkept : ∀ record ∈ upTo request.limit records, record.Kept request := by
      intro record hmem
      refine kept_of_returned hprint h ?_ (List.mem_map_of_mem hmem)
      exact (hprint record (upTo_subset hmem)).sought
    obtain ⟨hlasts, hskips⟩ := survive_of_returned 0 hprint hkept h
    exact ⟨fun record hmem => ⟨hkept record hmem, hlasts record hmem⟩, hskips⟩
  · rintro ⟨hfaithful, hskipped⟩
    exact parseContentLines_survive 0 hprint hfaithful hskipped

/-! ## §6. Searches for file names. -/

/-- A record of a file that the search may print. -/
structure FileRecord.Printable (record : FileRecord) : Prop where
  pathLine : '\n' ∉ record.path
  size : ∀ size ∈ record.size, size < 2 ^ 64
  modifiedAt : ∀ modifiedAt ∈ record.modifiedAt, modifiedAt < 2 ^ 64

/-- The result that a record should be read as. -/
def FileRecord.fileMatch (record : FileRecord) : RemoteFileMatch where
  path := record.path
  name := record.path.rtakeWhile fun c => c != '/'
  size := record.size
  modifiedAt := record.modifiedAt

def FileRecord.item (record : FileRecord) : SearchResultItem := .file record.fileMatch

theorem separator_not_optional (value : Option Nat) : fieldSeparator ∉ showOptional value := by
  cases value with
  | none => exact List.not_mem_nil
  | some n => exact separator_not_numeral

theorem parseOptionalU64_show {value : Option Nat} (h : ∀ n ∈ value, n < 2 ^ 64)
    (message : Text) : parseOptionalU64 (showOptional value) message = .ok value := by
  cases value with
  | none => rfl
  | some n =>
      have hprinted : parseU64 (showNat n) = some n := parseUnsigned_toDigits (h n rfl)
      unfold parseOptionalU64 showOptional
      rw [Option.map_some, Option.getD_some, hprinted, if_neg]
      intro hempty
      exact Nat.toDigits_ne_nil (List.isEmpty_iff.mp hempty)

/-- What is printed after the mark. -/
def FileRecord.payload (record : FileRecord) : Text :=
  record.path ++ fieldSeparator :: (showOptional record.size
    ++ fieldSeparator :: showOptional record.modifiedAt)

theorem FileRecord.line_eq (record : FileRecord) :
    record.line = fileRecordPrefix ++ record.payload := by
  unfold FileRecord.line FileRecord.payload
  rw [List.append_assoc, List.append_assoc, List.cons_append]

/-- A record of a file with an accepted path is read. -/
theorem parseFilenameRecord_payload {record : FileRecord} (h : record.Printable)
    (hpath : isResultPath record.path = true) :
    parseFilenameRecord record.payload = .ok record.fileMatch := by
  obtain ⟨hhead, hlast, hseparator⟩ := of_isResultPath hpath
  have hfields : fieldsOf 3 record.payload
      = [record.path, showOptional record.size, showOptional record.modifiedAt] := by
    unfold FileRecord.payload
    rw [fieldsOf_cons 1 hseparator, fieldsOf_cons 0 (separator_not_optional _)]
    rfl
  have hvalid : validateResultPath record.path = .ok () := if_pos hpath
  have hname : fileName record.path = .ok (record.path.rtakeWhile fun c => c != '/') := by
    refine if_neg fun hempty => ?_
    have hends := List.rtakeWhile_eq_nil_iff.mp (List.isEmpty_iff.mp hempty)
    have hne : record.path ≠ [] := by
      intro hnil
      rw [hnil] at hhead
      cases hhead
    rw [List.getLast?_eq_some_getLast hne] at hlast
    exact hends hne (bne_iff_ne.mpr fun heq => hlast (congrArg some heq))
  unfold parseFilenameRecord
  rw [hfields]
  exact bind_eq_ok.mpr ⟨_, rfl, bind_eq_ok.mpr ⟨_, rfl,
    bind_eq_ok.mpr ⟨_, parseOptionalU64_show h.size _, bind_eq_ok.mpr ⟨_, rfl,
      bind_eq_ok.mpr ⟨_, parseOptionalU64_show h.modifiedAt _, bind_eq_ok.mpr ⟨_, hvalid,
        bind_eq_ok.mpr ⟨_, hname, rfl⟩⟩⟩⟩⟩⟩⟩

theorem FileRecord.Printable.line {record : FileRecord} (h : record.Printable) :
    '\n' ∉ record.line := by
  have hnumeral : ∀ value : Option Nat, '\n' ∉ showOptional value := by
    rintro (_ | n) hmem
    · exact absurd hmem List.not_mem_nil
    · exact absurd (showNat_numeral _ _ hmem) (by decide)
  have hmark : '\n' ∉ fileRecordPrefix := by decide
  rw [FileRecord.line_eq]
  unfold FileRecord.payload
  rw [List.mem_append, List.mem_append, List.mem_cons, List.mem_append, List.mem_cons]
  rintro (hmem | hmem | hmem | hmem | hmem | hmem)
  · exact hmark hmem
  · exact h.pathLine hmem
  · exact absurd hmem (by decide)
  · exact hnumeral _ hmem
  · exact absurd hmem (by decide)
  · exact hnumeral _ hmem

theorem stripReturn_file (record : FileRecord) : stripReturn record.line = record.line := by
  refine stripReturn_of_last fun hlast => ?_
  have hnumeral : ∀ value : Option Nat, (fieldSeparator :: showOptional value).getLast?
      ≠ some '\r' := by
    intro value hreturn
    rcases List.mem_cons.mp (List.mem_of_getLast? hreturn) with heq | hmem
    · exact absurd heq (by decide)
    cases value with
    | none => exact absurd hmem List.not_mem_nil
    | some n => exact absurd (showNat_numeral _ _ hmem) (by decide)
  unfold FileRecord.line at hlast
  rw [List.getLast?_append_of_ne_nil _ (List.cons_ne_nil _ _)] at hlast
  exact hnumeral _ hlast

/-- Files are returned up to the limit. -/
theorem parseFilenameLines_survive {request : LogSearchRequest} {records : List FileRecord}
    (count : Nat) (hprint : ∀ record ∈ records, record.Printable)
    (hpath : ∀ record ∈ records.take (request.limit - count), isResultPath record.path = true) :
    parseFilenameLines request count (records.map FileRecord.line)
      = .ok ((records.take (request.limit - count)).map FileRecord.item) := by
  induction records generalizing count with
  | nil =>
      rw [List.take_nil]
      rfl
  | cons record records ih =>
      obtain ⟨hfirst, hprint⟩ := List.forall_mem_cons.mp hprint
      have hstep : parseFilenameLines request count ((record :: records).map FileRecord.line)
          = (if request.limit ≤ count then .ok []
            else do
              let item ← parseFilenameRecord record.payload
              let items ← parseFilenameLines request (count + 1) (records.map FileRecord.line)
              .ok (.file item :: items)) := by
        rw [List.map_cons, FileRecord.line_eq]
        conv_lhs => unfold parseFilenameLines
        rw [isPrefixOf?_append]
      rw [hstep]
      by_cases hfull : request.limit ≤ count
      · rw [if_pos hfull, show request.limit - count = 0 by omega]
        rfl
      · rw [show request.limit - count = request.limit - (count + 1) + 1 by omega,
          List.take_succ_cons] at hpath ⊢
        obtain ⟨haccepted, hpath⟩ := List.forall_mem_cons.mp hpath
        rw [if_neg hfull, parseFilenameRecord_payload hfirst haccepted]
        exact bind_eq_ok.mpr ⟨_, rfl, bind_eq_ok.mpr ⟨_, ih _ hprint hpath, rfl⟩⟩

/-- **A search for file names returns its records exactly when the paths within the limit are
accepted.** -/
theorem file_records_survive {request : LogSearchRequest} {records : List FileRecord}
    (hprint : ∀ record ∈ records, record.Printable) :
    parseFilenameOutput request (printLines (records.map FileRecord.line))
      = .ok ((records.take request.limit).map FileRecord.item)
    ↔ ∀ record ∈ records.take request.limit, isResultPath record.path = true := by
  have hlines : lines (printLines (records.map FileRecord.line))
      = records.map FileRecord.line := by
    rw [lines_printLines fun line hline => by
      obtain ⟨record, hmem, rfl⟩ := List.mem_map.mp hline
      exact (hprint record hmem).line, List.map_map]
    exact List.map_congr_left fun record _ => stripReturn_file record
  unfold parseFilenameOutput
  rw [hlines]
  constructor
  · intro h record hmem
    exact (parseFilenameLines_sound h).1 _ (List.mem_map_of_mem hmem)
  · exact parseFilenameLines_survive 0 hprint

/-! ## §7. The round trip. -/

/-- **The records of each kind of search come back exactly when what they hold is not taken for
something else.** -/
theorem search_records_survive_iff {request : LogSearchRequest} (redactor : Redactor)
    (hvalid : request.validate = .ok ()) :
    (request.target = .content → ∀ records : List LogRecord,
      (∀ record ∈ records, record.Printable request redactor) →
      (parseSearchOutput request (printLines (records.map (LogRecord.line request))) redactor
          = .ok ((upTo request.limit records).map LogRecord.item)
        ↔ (∀ record ∈ upTo request.limit records, record.Faithful request)
          ∧ ∀ record ∈ beyond request.limit records, record.Skipped request))
    ∧ (request.target = .filename → ∀ records : List FileRecord,
      (∀ record ∈ records, record.Printable) →
      (parseSearchOutput request (printLines (records.map FileRecord.line)) redactor
          = .ok ((records.take request.limit).map FileRecord.item)
        ↔ ∀ record ∈ records.take request.limit, isResultPath record.path = true)) := by
  unfold parseSearchOutput parseContentOutput
  rw [hvalid]
  constructor
  · intro htarget records hprint
    rw [htarget]
    exact content_records_survive hprint
  · intro htarget records hprint
    rw [htarget]
    exact file_records_survive hprint

/-- The search of one file. -/
def fileRequest : LogSearchRequest where
  target := .content
  path := "/a".toList
  keyword := "k".toList
  caseSensitive := false
  contextLines := 0
  limit := 2
  startTime := none
  endTime := none

def noSecrets : Redactor where
  runtimeSecrets := []
  nonempty := Core.Redaction.nonempty_of_none

def matchOf (text : String) : LogRecord where
  path := "/a".toList
  lineNumber := 1
  kind := .matched
  text := text.toList

theorem matchOf_printable {text : String} (hline : '\n' ∉ text.toList)
    (hkey : ¬ Redaction.beginMark <:+: text.toList)
    (hmarker : ∀ marker ∈ Redaction.markers, ¬ marker <:+: text.toList.map Tasks.toAsciiLower) :
    (matchOf text).Printable fileRequest noSecrets where
  pathLine := by show '\n' ∉ "/a".toList; decide
  textLine := hline
  lineNumber := by show 1 < 2 ^ 64; decide
  sought _ := rfl
  untouched := untouched_of_plain rfl hkey hmarker

theorem plain_record_survives :
    parseSearchOutput fileRequest (printLines ([matchOf "k"].map (LogRecord.line fileRequest)))
        noSecrets = .ok ((upTo fileRequest.limit [matchOf "k"]).map LogRecord.item)
      ↔ (∀ record ∈ upTo fileRequest.limit [matchOf "k"], record.Faithful fileRequest)
        ∧ ∀ record ∈ beyond fileRequest.limit [matchOf "k"], record.Skipped fileRequest :=
  (search_records_survive_iff noSecrets (by decide)).1 rfl _
    (List.forall_mem_singleton.mpr (matchOf_printable (by decide) (by decide) (by decide)))

/-- A separator in a line of a log cuts its text off, and one in the name of a file refuses all
that was found. -/
theorem separator_breaks_search :
    (matchOf "k\x1fl").Printable fileRequest noSecrets
    ∧ (parseSearchOutput fileRequest
        (printLines ([matchOf "k\x1fl"].map (LogRecord.line fileRequest))) noSecrets
      = .ok [(matchOf "k").item] ∧ (matchOf "k").item ≠ (matchOf "k\x1fl").item)
    ∧ parseSearchOutput { fileRequest with target := .filename, path := [] }
        (printLines ([⟨"/k".toList, none, none⟩, ⟨"/k\x1f".toList, none, none⟩].map
          FileRecord.line)) noSecrets
      = .error (.validation "文件名查找输出时间无效".toList) := by
  refine ⟨matchOf_printable (by decide) (by decide) (by decide), ⟨by decide, by decide⟩, ?_⟩
  decide

end QingzhouSSH.Core.Logs
