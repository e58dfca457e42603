/-
  QingzhouSSH.Core.Logs.ResultStore — the stored results of a search, and their pages.

  A search writes its results once, one JSON object to a line, and a text for people beside
  it.  A page is read from the file again; its cursor is the number of results before it.  The
  files are kept as their texts.

  Main results:
    * `decodeItem_encodeItem` — a result is read back from its line;
    * `readPage_written` — a page of what has been written;
    * `pages_return_all` — the pages, one after the other, are all that has been written.
-/
import QingzhouSSH.Core.JsonReader
import QingzhouSSH.Core.Logs.Records
import QingzhouSSH.Domain.WorkflowRun

namespace QingzhouSSH.Core.Logs

open QingzhouSSH.Domain (Uuid)
open QingzhouSSH.Lib.Net (parseUnsigned parseUnsigned_toDigits)
open QingzhouSSH.JsonTree

/-! ## §1. The text of a result. -/

/-- A text of an object. -/
def textField (key : String) (value : Text) : FieldText where
  key := key.toList
  text := Value.jsonString value
  tree := .string value
  reads := reads_string value

/-- A number of an object. -/
def numberField (key : String) (value : Nat) : FieldText where
  key := key.toList
  text := showNat value
  tree := .number (showNat value)
  reads := reads_nat value

def nullField (key : String) : FieldText where
  key := key.toList
  text := "null".toList
  tree := .null
  reads := reads_null

def optionalField {α : Type} (field : String → α → FieldText) (key : String) :
    Option α → FieldText
  | none => nullField key
  | some value => field key value

/-- The fields that `Serialize` writes, in their order, behind the tag. -/
def SearchResultItem.fields : SearchResultItem → List FieldText
  | .content item =>
      [textField "resultType" "content".toList, textField "path" item.path,
        numberField "lineNumber" item.lineNumber, textField "kind" item.kind.asStr,
        optionalField textField "timestamp" item.timestamp, textField "text" item.text]
  | .file item =>
      [textField "resultType" "file".toList, textField "path" item.path,
        textField "name" item.name, optionalField numberField "size" item.size,
        optionalField numberField "modifiedAt" item.modifiedAt]

/-- `serde_json::to_vec`. -/
def encodeItem (item : SearchResultItem) : Text := objectText item.fields

/-! ## §2. Reading a result. -/

/-- A field of an object; `Deserialize` refuses one that is there twice. -/
def fieldOf (fields : List (Text × JsonTree)) (key : String) : Option (Option JsonTree) :=
  match fields.filter fun field => field.1 == key.toList with
  | [] => some none
  | [field] => some (some field.2)
  | _ => none

def required (fields : List (Text × JsonTree)) (key : String) : Option JsonTree := do
  let field ← fieldOf fields key
  field

/-- An `Option` may be left out, or be `null`. -/
def optional {α : Type} (read : JsonTree → Option α) (fields : List (Text × JsonTree))
    (key : String) : Option (Option α) := do
  match ← fieldOf fields key with
  | none => some none
  | some .null => some none
  | some tree => (read tree).map some

def readText : JsonTree → Option Text
  | .string s => some s
  | _ => none

/-- A `u64`: no sign, no fraction and no exponent. -/
def readU64 : JsonTree → Option Nat
  | .number token => parseU64 token
  | _ => none

def readKind (tree : JsonTree) : Option LogLineKind := do
  let text ← readText tree
  if text = "match".toList then some .matched
  else if text = "context".toList then some .context
  else none

def readMatch (fields : List (Text × JsonTree)) : Option LogMatch := do
  let path ← (← required fields "path") |> readText
  let lineNumber ← (← required fields "lineNumber") |> readU64
  let kind ← (← required fields "kind") |> readKind
  let timestamp ← optional readText fields "timestamp"
  let text ← (← required fields "text") |> readText
  some { path := path, lineNumber := lineNumber, kind := kind, timestamp := timestamp, text := text }

def readFile (fields : List (Text × JsonTree)) : Option RemoteFileMatch := do
  let path ← (← required fields "path") |> readText
  let name ← (← required fields "name") |> readText
  let size ← optional readU64 fields "size"
  let modifiedAt ← optional readU64 fields "modifiedAt"
  some { path := path, name := name, size := size, modifiedAt := modifiedAt }

/-- The tag chooses what the other fields are read as. -/
def readItem (fields : List (Text × JsonTree)) : Option SearchResultItem := do
  let tag ← (← required fields "resultType") |> readText
  if tag = "content".toList then (readMatch fields).map .content
  else if tag = "file".toList then (readFile fields).map .file
  else none

/-- `serde_json::from_str` of a line; it also reads results that are written as arrays, which
`write` never does. -/
def decodeItem (line : Text) : Option SearchResultItem :=
  match fromStr line with
  | some (.object fields) => readItem fields
  | _ => none

/-! ## §3. The store. -/

structure ResultStore.StoredLogResults where
  count : Nat
  jsonlRelativePath : Text
  textRelativePath : Text
  jsonlSha256 : Text
  textSha256 : Text

structure LogResultPage where
  items : List SearchResultItem
  nextCursor : Option Text

/-- The files below the data root, by their relative paths. -/
abbrev LogResultStore := Text → Option Text

def resultDirectory (executionId : Uuid) : Text := "logs/searches/".toList ++ executionId.text

def jsonlPath (executionId : Uuid) : Text := resultDirectory executionId ++ "/results.jsonl".toList

def textPath (executionId : Uuid) : Text := resultDirectory executionId ++ "/results.txt".toList

def showOrUnknown (value : Option Nat) : Text :=
  match value with
  | some n => showNat n
  | none => "unknown".toList

/-- The line of a result for people. -/
def renderItem : SearchResultItem → Text
  | .content item =>
      let kind := match item.kind with
        | .matched => "MATCH".toList
        | .context => "CONTEXT".toList
      item.path ++ ':' :: showNat item.lineNumber ++ " [".toList ++ kind ++ "] ".toList ++ item.text
  | .file item =>
      item.path ++ " [FILE] size=".toList ++ showOrUnknown item.size ++ " modified=".toList
        ++ showOrUnknown item.modifiedAt

/-- `write`, which replaces both files of the execution. -/
def writeResults (sha256 : Text → Text) (executionId : Uuid) (found : List SearchResultItem)
    (store : LogResultStore) : ResultStore.StoredLogResults × LogResultStore :=
  let jsonl := printLines (found.map encodeItem)
  let text := printLines (found.map renderItem)
  ({ count := found.length, jsonlRelativePath := jsonlPath executionId,
     textRelativePath := textPath executionId, jsonlSha256 := sha256 jsonl,
     textSha256 := sha256 text },
    Function.update (Function.update store (jsonlPath executionId) (some jsonl))
      (textPath executionId) (some text))

/-- The loop over the lines: the number of the next line, and what has been read so far. -/
def readLinesFrom (offset pageSize : Nat) :
    Nat → List SearchResultItem → List Text → AppResult (List SearchResultItem × Bool)
  | _, items, [] => .ok (items, false)
  | index, items, line :: rest =>
      if index < offset then readLinesFrom offset pageSize (index + 1) items rest
      else if items.length = pageSize then .ok (items, true)
      else
        match decodeItem line with
        | none => .error (.serialization line)
        | some item => readLinesFrom offset pageSize (index + 1) (items ++ [item]) rest

def parseCursor : Option Text → AppResult Nat
  | none => .ok 0
  | some value =>
      match parseUnsigned (2 ^ 64) value with
      | some offset => .ok offset
      | none => .error (.validation "日志结果游标无效".toList)

def readPage (executionId : Uuid) (cursor : Option Text) (pageSize : Nat) (store : LogResultStore) :
    AppResult LogResultPage := do
  if ¬(1 ≤ pageSize ∧ pageSize ≤ 200) then
    throw (.validation "日志结果每页数量必须在 1 到 200 之间".toList)
  let offset ← parseCursor cursor
  match store (jsonlPath executionId) with
  | none => .error (.io "NotFound".toList)
  | some jsonl => do
      let (items, hasMore) ← readLinesFrom offset pageSize 0 [] (lines jsonl)
      .ok { items := items,
            nextCursor := if hasMore then some (showNat (offset + items.length)) else none }

/-! ## §4. A result is read back. -/

/-- The numbers of a result are `u64`s. -/
def SearchResultItem.InU64 : SearchResultItem → Prop
  | .content item => item.lineNumber < 2 ^ 64
  | .file item => (∀ size ∈ item.size, size < 2 ^ 64) ∧ ∀ time ∈ item.modifiedAt, time < 2 ^ 64

theorem readU64_number {n : Nat} (h : n < 2 ^ 64) : readU64 (.number (showNat n)) = some n :=
  parseUnsigned_toDigits h

theorem readKind_asStr (kind : LogLineKind) : readKind (.string kind.asStr) = some kind := by
  cases kind <;> rfl

/-- The tree of a field that may be absent. -/
def optionalTree {α : Type} (tree : α → JsonTree) : Option α → JsonTree
  | none => .null
  | some value => tree value

/-- What the fields of a match are read as. -/
def matchTrees (item : LogMatch) : List (Text × JsonTree) :=
  [("resultType".toList, .string "content".toList), ("path".toList, .string item.path),
    ("lineNumber".toList, .number (showNat item.lineNumber)),
    ("kind".toList, .string item.kind.asStr),
    ("timestamp".toList, optionalTree .string item.timestamp), ("text".toList, .string item.text)]

/-- What the fields of a file are read as. -/
def fileTrees (item : RemoteFileMatch) : List (Text × JsonTree) :=
  [("resultType".toList, .string "file".toList), ("path".toList, .string item.path),
    ("name".toList, .string item.name),
    ("size".toList, optionalTree (fun n => .number (showNat n)) item.size),
    ("modifiedAt".toList, optionalTree (fun n => .number (showNat n)) item.modifiedAt)]

theorem fields_content (item : LogMatch) :
    (SearchResultItem.content item).fields.map FieldText.read = matchTrees item := by
  obtain ⟨path, lineNumber, kind, timestamp, text⟩ := item
  cases timestamp <;> rfl

theorem fields_file (item : RemoteFileMatch) :
    (SearchResultItem.file item).fields.map FieldText.read = fileTrees item := by
  obtain ⟨path, name, size, modifiedAt⟩ := item
  cases size <;> cases modifiedAt <;> rfl

/-- An optional field that is there once. -/
theorem optional_tree {α : Type} {read : JsonTree → Option α} {tree : α → JsonTree}
    {fields : List (Text × JsonTree)} {key : String} {value : Option α}
    (hfield : fieldOf fields key = some (some (optionalTree tree value)))
    (hread : ∀ a ∈ value, tree a ≠ .null ∧ read (tree a) = some a) :
    optional read fields key = some value := by
  unfold optional
  rw [hfield]
  cases value with
  | none => rfl
  | some a =>
      obtain ⟨hnull, hread⟩ := hread a rfl
      show (match some (tree a) with
        | none => some none
        | some .null => some none
        | some tree => (read tree).map some) = _
      split
      next heq => cases heq
      next heq => exact absurd (Option.some.inj heq) hnull
      next other _ heq =>
        obtain rfl := Option.some.inj heq
        rw [hread]
        rfl

theorem readMatch_trees {item : LogMatch} (h : item.lineNumber < 2 ^ 64) :
    readMatch (matchTrees item) = some item := by
  have hpath : required (matchTrees item) "path" = some (.string item.path) := rfl
  have hline : required (matchTrees item) "lineNumber"
      = some (.number (showNat item.lineNumber)) := rfl
  have hkind : required (matchTrees item) "kind" = some (.string item.kind.asStr) := rfl
  have htime : optional readText (matchTrees item) "timestamp" = some item.timestamp :=
    @optional_tree _ _ JsonTree.string _ _ _ rfl fun _ _ => ⟨nofun, rfl⟩
  have htext : required (matchTrees item) "text" = some (.string item.text) := rfl
  unfold readMatch
  rw [hpath, hline, hkind, htime, htext]
  simp only [Option.bind_eq_bind, Option.bind_some, readU64_number h, readKind_asStr]
  rfl

theorem readFile_trees {item : RemoteFileMatch} (hsize : ∀ size ∈ item.size, size < 2 ^ 64)
    (htime : ∀ time ∈ item.modifiedAt, time < 2 ^ 64) : readFile (fileTrees item) = some item := by
  have hpath : required (fileTrees item) "path" = some (.string item.path) := rfl
  have hname : required (fileTrees item) "name" = some (.string item.name) := rfl
  have hsizes : optional readU64 (fileTrees item) "size" = some item.size :=
    @optional_tree _ _ (fun n => JsonTree.number (showNat n)) _ _ _ rfl fun n hn =>
      ⟨nofun, readU64_number (hsize n hn)⟩
  have htimes : optional readU64 (fileTrees item) "modifiedAt" = some item.modifiedAt :=
    @optional_tree _ _ (fun n => JsonTree.number (showNat n)) _ _ _ rfl fun n hn =>
      ⟨nofun, readU64_number (htime n hn)⟩
  unfold readFile
  rw [hpath, hname, hsizes, htimes]
  rfl

/-- **A result is read back from its line.** -/
theorem decodeItem_encodeItem {item : SearchResultItem} (h : item.InU64) :
    decodeItem (encodeItem item) = some item := by
  unfold decodeItem encodeItem
  rw [fromStr_of_reads (reads_object _)]
  show readItem (item.fields.map FieldText.read) = some item
  cases item with
  | content item =>
      have htag : required (matchTrees item) "resultType" = some (.string "content".toList) := rfl
      rw [fields_content]
      unfold readItem
      rw [htag]
      show (readMatch (matchTrees item)).map SearchResultItem.content = _
      rw [readMatch_trees h]
      rfl
  | file item =>
      have htag : required (fileTrees item) "resultType" = some (.string "file".toList) := rfl
      rw [fields_file]
      unfold readItem
      rw [htag]
      show (readFile (fileTrees item)).map SearchResultItem.file = _
      rw [readFile_trees h.1 h.2]
      rfl

/-! ## §5. The lines of the file. -/

theorem newline_not_escapeChar (c : Char) : '\n' ∉ Value.escapeChar c := by
  have hhex : ∀ n < 16, Value.hexDigit n ≠ '\n' := by decide
  unfold Value.escapeChar
  by_cases hquote : c = '"'
  · rw [if_pos hquote]
    decide
  rw [if_neg hquote]
  by_cases hslash : c = '\\'
  · rw [if_pos hslash]
    decide
  rw [if_neg hslash]
  split
  · decide
  split
  · decide
  split
  · decide
  next hten =>
    split
    · decide
    split
    · decide
    split
    next hcontrol =>
      simp only [List.mem_cons, List.not_mem_nil, or_false, not_or]
      refine ⟨by decide, by decide, by decide, by decide, ?_, ?_⟩
      · exact (hhex _ (by omega)).symm
      · exact (hhex _ (by omega)).symm
    next =>
      rw [List.mem_singleton]
      rintro rfl
      exact hten rfl

theorem newline_not_jsonString (s : Text) : '\n' ∉ Value.jsonString s := by
  unfold Value.jsonString
  rw [List.mem_cons, List.mem_append, List.mem_flatMap]
  rintro (hmem | ⟨c, -, hmem⟩ | hmem)
  · exact absurd hmem (by decide)
  · exact newline_not_escapeChar c hmem
  · exact absurd hmem (by decide)

theorem newline_not_showNat (n : Nat) : '\n' ∉ showNat n := fun hmem =>
  absurd (showNat_numeral _ _ hmem) (by decide)

theorem newline_not_field {item : SearchResultItem} {field : FieldText}
    (h : field ∈ item.fields) : '\n' ∉ field.text := by
  have hoptional : ∀ {α : Type} {make : String → α → FieldText} {key : String} (value : Option α),
      (∀ a, '\n' ∉ (make key a).text) → '\n' ∉ (optionalField make key value).text := by
    intro α make key value hmake
    cases value with
    | none => exact (by decide : '\n' ∉ "null".toList)
    | some a => exact hmake a
  cases item with
  | content item =>
      simp only [SearchResultItem.fields, List.mem_cons, List.not_mem_nil, or_false] at h
      rcases h with rfl | rfl | rfl | rfl | rfl | rfl
      · exact newline_not_jsonString _
      · exact newline_not_jsonString _
      · exact newline_not_showNat _
      · exact newline_not_jsonString _
      · exact hoptional _ fun _ => newline_not_jsonString _
      · exact newline_not_jsonString _
  | file item =>
      simp only [SearchResultItem.fields, List.mem_cons, List.not_mem_nil, or_false] at h
      rcases h with rfl | rfl | rfl | rfl | rfl
      · exact newline_not_jsonString _
      · exact newline_not_jsonString _
      · exact newline_not_jsonString _
      · exact hoptional _ fun _ => newline_not_showNat _
      · exact hoptional _ fun _ => newline_not_showNat _

/-- Characters of a joined text. -/
theorem mem_intercalate {c d : Char} (hne : c ≠ d) {texts : List Text}
    (h : c ∈ List.intercalate [d] texts) : ∃ text ∈ texts, c ∈ text := by
  induction texts with
  | nil => exact absurd h List.not_mem_nil
  | cons text texts ih =>
      cases texts with
      | nil =>
          rw [List.intercalate_singleton] at h
          exact ⟨text, List.mem_cons_self, h⟩
      | cons next texts =>
          rw [List.intercalate_cons_cons, List.mem_append, List.mem_append, List.mem_singleton] at h
          rcases h with (h | h) | h
          · exact ⟨text, List.mem_cons_self, h⟩
          · exact absurd h hne
          · obtain ⟨other, hother, hmem⟩ := ih h
            exact ⟨other, List.mem_cons_of_mem _ hother, hmem⟩

/-- **A result takes one line.** -/
theorem newline_not_encodeItem (item : SearchResultItem) : '\n' ∉ encodeItem item := by
  unfold encodeItem objectText
  rw [List.mem_cons, List.mem_append, List.mem_singleton]
  rintro (hmem | hmem | hmem)
  · exact absurd hmem (by decide)
  · obtain ⟨text, htext, hmem⟩ := mem_intercalate (by decide) hmem
    obtain ⟨field, hfield, rfl⟩ := List.mem_map.mp htext
    rcases List.mem_append.mp hmem with hkey | hvalue
    · exact newline_not_jsonString _ hkey
    · rcases List.mem_cons.mp hvalue with heq | hvalue
      · exact absurd heq (by decide)
      · exact newline_not_field hfield hvalue
  · exact absurd hmem (by decide)

theorem stripReturn_encodeItem (item : SearchResultItem) :
    stripReturn (encodeItem item) = encodeItem item := by
  refine stripReturn_of_last ?_
  unfold encodeItem objectText
  rw [← List.cons_append, List.getLast?_append_of_ne_nil _ (List.cons_ne_nil _ _)]
  decide

/-- The lines that are read are those that have been written. -/
theorem lines_encoded (found : List SearchResultItem) :
    lines (printLines (found.map encodeItem)) = found.map encodeItem := by
  rw [lines_printLines, List.map_map]
  · exact List.map_congr_left fun item _ => stripReturn_encodeItem item
  · intro line hline
    obtain ⟨item, -, rfl⟩ := List.mem_map.mp hline
    exact newline_not_encodeItem item

/-! ## §6. Pages. -/

section Pages

variable {offset pageSize : Nat}

/-- Lines in front of the page are passed over. -/
theorem readLinesFrom_skip {found : List SearchResultItem} {index : Nat}
    (h : index + found.length ≤ offset) (rest : List Text) :
    readLinesFrom offset pageSize index [] (found.map encodeItem ++ rest)
      = readLinesFrom offset pageSize (index + found.length) [] rest := by
  induction found generalizing index with
  | nil => rfl
  | cons item found ih =>
      rw [List.length_cons] at h
      rw [List.map_cons, List.cons_append, List.length_cons,
        show index + (found.length + 1) = index + 1 + found.length by omega,
        ← ih (by omega), readLinesFrom, if_pos (by omega)]

/-- A page is filled, and one more line says that there is more. -/
theorem readLinesFrom_take {found : List SearchResultItem} (hfound : ∀ item ∈ found, item.InU64)
    {index : Nat} (hindex : offset ≤ index) {items : List SearchResultItem}
    (hroom : items.length ≤ pageSize) :
    readLinesFrom offset pageSize index items (found.map encodeItem)
      = .ok (items ++ found.take (pageSize - items.length),
          decide (pageSize < items.length + found.length)) := by
  induction found generalizing index items with
  | nil =>
      have hnone : ¬ pageSize < items.length + 0 := by omega
      show Except.ok (items, false) = _
      rw [List.take_nil, List.append_nil, List.length_nil, decide_eq_false hnone]
  | cons item found ih =>
      obtain ⟨hfirst, hfound⟩ := List.forall_mem_cons.mp hfound
      rw [List.map_cons, readLinesFrom, if_neg (by omega)]
      by_cases hfull : items.length = pageSize
      · have hmore : pageSize < items.length + (item :: found).length := by
          rw [List.length_cons]
          omega
        rw [if_pos hfull, hfull, Nat.sub_self, List.take_zero, List.append_nil, ← hfull,
          decide_eq_true (by rw [hfull] at hmore ⊢; exact hmore)]
      · have hleft : pageSize - items.length = pageSize - (items ++ [item]).length + 1 := by
          rw [List.length_append, List.length_singleton]
          omega
        rw [if_neg hfull, decodeItem_encodeItem hfirst]
        dsimp only
        rw [ih hfound (by omega) (by rw [List.length_append, List.length_singleton]; omega), hleft,
          List.take_succ_cons, List.append_assoc, List.singleton_append, List.length_append,
          List.length_singleton, List.length_cons]
        congr 3
        exact propext (by omega)

/-- The file of an execution after its results have been written. -/
theorem writeResults_jsonl (sha256 : Text → Text) (executionId : Uuid)
    (found : List SearchResultItem) (store : LogResultStore) :
    (writeResults sha256 executionId found store).2 (jsonlPath executionId)
      = some (printLines (found.map encodeItem)) := by
  have hpaths : jsonlPath executionId ≠ textPath executionId := by
    unfold jsonlPath textPath
    intro heq
    exact absurd (List.append_cancel_left heq) (by decide)
  show Function.update (Function.update store _ _) _ _ _ = _
  rw [Function.update_of_ne hpaths, Function.update_self]

variable {sha256 : Text → Text} {executionId : Uuid} {found : List SearchResultItem}
  {store : LogResultStore}

/-- **A page holds what stands behind its cursor, and says where the next one starts if there is
more.** -/
theorem readPage_written (hfound : ∀ item ∈ found, item.InU64)
    (hsize : 1 ≤ pageSize ∧ pageSize ≤ 200) {cursor : Option Text}
    (hcursor : parseCursor cursor = .ok offset) (hoffset : offset ≤ found.length) :
    readPage executionId cursor pageSize (writeResults sha256 executionId found store).2
      = .ok { items := (found.drop offset).take pageSize,
              nextCursor := if offset + pageSize < found.length
                then some (showNat (offset + pageSize)) else none } := by
  have hlines : readLinesFrom offset pageSize 0 []
      (lines (printLines (found.map encodeItem)))
      = .ok ((found.drop offset).take pageSize, decide (offset + pageSize < found.length)) := by
    have hlength : (found.take offset).length = offset := List.length_take_of_le hoffset
    have hskip := @readLinesFrom_skip offset pageSize (found.take offset) 0 (by omega)
      ((found.drop offset).map encodeItem)
    rw [← List.map_append, List.take_append_drop] at hskip
    rw [lines_encoded, hskip, readLinesFrom_take (fun item hitem => hfound item
      (List.mem_of_mem_drop hitem)) (by omega) (Nat.zero_le _), List.nil_append, List.length_nil,
      Nat.sub_zero, List.length_drop]
    congr 3
    exact propext (by omega)
  unfold readPage
  rw [if_neg (not_not_intro hsize), writeResults_jsonl]
  refine bind_eq_ok.mpr ⟨offset, hcursor, bind_eq_ok.mpr ⟨_, hlines, ?_⟩⟩
  by_cases hmore : offset + pageSize < found.length
  · have hfull : ((found.drop offset).take pageSize).length = pageSize := by
      rw [List.length_take, List.length_drop]
      omega
    dsimp only
    rw [hfull, if_pos hmore, if_pos (decide_eq_true hmore)]
  · dsimp only
    rw [if_neg hmore, if_neg (by simpa using hmore)]

/-- The pages from a cursor on, each at the cursor that the one before has named. -/
inductive Follows (executionId : Uuid) (pageSize : Nat) (store : LogResultStore) :
    Option Text → List LogResultPage → Prop where
  | last {cursor : Option Text} {page : LogResultPage} :
      readPage executionId cursor pageSize store = .ok page → page.nextCursor = none →
      Follows executionId pageSize store cursor [page]
  | next {cursor : Option Text} {page : LogResultPage} {next : Text}
      {pages : List LogResultPage} :
      readPage executionId cursor pageSize store = .ok page → page.nextCursor = some next →
      Follows executionId pageSize store (some next) pages →
      Follows executionId pageSize store cursor (page :: pages)

/-- Exactly the last page names no other, and exactly with it nothing is left. -/
def EndsWithLast (found : List SearchResultItem) (pages : List LogResultPage) : Prop :=
  ∀ before page after, pages = before ++ page :: after →
    (page.nextCursor = none ↔ after = [])
      ∧ (page.nextCursor = none ↔ (before ++ [page]).flatMap LogResultPage.items = found)

theorem pages_from (hfound : ∀ item ∈ found, item.InU64) (hcount : found.length < 2 ^ 64)
    (hsize : 1 ≤ pageSize ∧ pageSize ≤ 200) {cursor : Option Text}
    (hcursor : parseCursor cursor = .ok offset) (hoffset : offset ≤ found.length) :
    ∃ pages, Follows executionId pageSize (writeResults sha256 executionId found store).2 cursor
        pages
      ∧ pages.flatMap LogResultPage.items = found.drop offset
      ∧ EndsWithLast (found.drop offset) pages := by
  -- each page brings the cursor closer to the end
  induction hleft : found.length - offset using Nat.strong_induction_on
    generalizing offset cursor with
  | h left ih =>
      have hpage := @readPage_written offset pageSize sha256 executionId found store hfound hsize
        cursor hcursor hoffset
      by_cases hmore : offset + pageSize < found.length
      · rw [if_pos hmore] at hpage
        have hnext : parseCursor (some (showNat (offset + pageSize))) = .ok (offset + pageSize) := by
          unfold parseCursor showNat
          dsimp only
          rw [parseUnsigned_toDigits (by omega)]
        obtain ⟨pages, hpages, hitems, hends⟩ := ih _ (by omega) hnext (by omega) rfl
        have hsplit : (found.drop offset).take pageSize ++ found.drop (offset + pageSize)
            = found.drop offset := by
          rw [← List.drop_drop, List.take_append_drop]
        refine ⟨_ :: pages, .next hpage rfl hpages, ?_, ?_⟩
        · rw [List.flatMap_cons, hitems]
          exact hsplit
        · intro before page after hpages
          cases before with
          | nil =>
              obtain ⟨rfl, rfl⟩ := List.cons.inj hpages
              refine ⟨iff_of_false nofun ?_, iff_of_false nofun ?_⟩
              · rintro rfl
                have hempty : found.drop (offset + pageSize) = [] := hitems.symm
                rw [List.drop_eq_nil_iff] at hempty
                omega
              · intro hall
                have hlength := congrArg List.length hall
                simp only [List.nil_append, List.flatMap_cons, List.flatMap_nil, List.append_nil,
                  List.length_take, List.length_drop] at hlength
                omega
          | cons first before =>
              obtain ⟨rfl, hothers⟩ := List.cons.inj hpages
              obtain ⟨hlast, hall⟩ := hends before page after hothers
              refine ⟨hlast, hall.trans ?_⟩
              rw [List.cons_append, List.flatMap_cons,
                ← List.append_right_inj ((found.drop offset).take pageSize), hsplit]
      · rw [if_neg hmore] at hpage
        have hall : (found.drop offset).take pageSize = found.drop offset := by
          rw [List.take_of_length_le]
          rw [List.length_drop]
          omega
        refine ⟨_, .last hpage rfl, ?_, ?_⟩
        · rw [List.flatMap_singleton]
          exact hall
        · intro before page after hpages
          obtain ⟨rfl, hone⟩ | ⟨_, hnone⟩ := List.append_eq_singleton_iff.mp hpages.symm
          · obtain ⟨rfl, rfl⟩ := List.cons.inj hone
            refine ⟨iff_of_true rfl rfl, iff_of_true rfl ?_⟩
            rw [List.nil_append, List.flatMap_singleton]
            exact hall
          · cases hnone

/-- **The pages of a search, one after the other, are all that it has written.** -/
theorem pages_return_all (sha256 : Text → Text) (executionId : Uuid) (store : LogResultStore)
    {found : List SearchResultItem} (hfound : ∀ item ∈ found, item.InU64)
    (hcount : found.length < 2 ^ 64) {pageSize : Nat} (hsize : 1 ≤ pageSize ∧ pageSize ≤ 200) :
    ∃ pages, Follows executionId pageSize (writeResults sha256 executionId found store).2 none pages
      ∧ pages.flatMap LogResultPage.items = found ∧ EndsWithLast found pages :=
  @pages_from 0 pageSize sha256 executionId found store hfound hcount hsize none rfl (Nat.zero_le _)

end Pages

/-! ## §7. Two pages. -/

/-- A line break and a quote in the text of a log. -/
def storedItem (lineNumber : Nat) : SearchResultItem :=
  .content { path := "/a".toList, lineNumber := lineNumber, kind := .matched, timestamp := none,
             text := "a\n\"".toList }

def storedExecution : Uuid where
  text := "00000000-0000-4000-8000-000000000001".toList
  hyphenated := Domain.hyphenated_one

theorem threeItems_returned :
    ∃ pages, Follows storedExecution 2
        (writeResults id storedExecution [storedItem 1, storedItem 2, storedItem 3] fun _ => none).2
        none pages
      ∧ pages.flatMap LogResultPage.items = [storedItem 1, storedItem 2, storedItem 3]
      ∧ EndsWithLast [storedItem 1, storedItem 2, storedItem 3] pages := by
  refine pages_return_all id storedExecution (fun _ => none) ?_ (by decide) (by decide)
  intro item hitem
  simp only [List.mem_cons, List.not_mem_nil, or_false] at hitem
  rcases hitem with rfl | rfl | rfl
  · exact (by decide : 1 < 2 ^ 64)
  · exact (by decide : 2 < 2 ^ 64)
  · exact (by decide : 3 < 2 ^ 64)

end QingzhouSSH.Core.Logs
