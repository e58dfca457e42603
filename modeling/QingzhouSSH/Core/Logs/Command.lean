/-
  QingzhouSSH.Core.Logs.Command — the commands of a log search.
-/
import QingzhouSSH.Core.Logs.Request
import QingzhouSSH.Core.Tasks.Planner

namespace QingzhouSSH.Core.Logs

open QingzhouSSH.Core.Tasks (SystemCapabilities shellQuote)

def searchRoots : List Text := ["/var/log".toList, "/opt".toList, "/srv".toList, "/home".toList]

/-- The `grep` of a content search. -/
def grepCommand (request : LogSearchRequest) : Text :=
  "grep -n -F".toList ++ (if request.caseSensitive then [] else " -i".toList) ++ " -C ".toList
    ++ showNat request.contextLines ++ " -- ".toList ++ shellQuote request.keyword

/-- The commands that find the candidates below each root, at most `most` of them. -/
def discovery (predicate : Text) (most : Nat) : Text :=
  "\x7b ".toList
    ++ List.intercalate "; ".toList (searchRoots.map fun root =>
        "find ".toList ++ shellQuote root ++ " -maxdepth 6 -type f ".toList ++ predicate
          ++ " -print 2>/dev/null".toList)
    ++ "; \x7d | awk ".toList
    ++ shellQuote ("!seen[$0]++ && count < ".toList ++ showNat most
        ++ " \x7b print; count++ \x7d".toList)

/-- The script that turns a line of `grep` into a record. -/
def recordFormatter (fields arguments : Text) : Text :=
  "$0 == \"--\" \x7b next \x7d match($0, /^[0-9]+[:-]/) \x7b mark=substr($0, RLENGTH, 1); line=substr($0, 1, RLENGTH-1); text=substr($0, RLENGTH+1); kind=(mark == \":\" ? \"match\" : \"context\"); printf \"__QZ_LOG__".toList
    ++ fields ++ "\\n\", ".toList ++ arguments ++ " \x7d".toList

/-- A field of a record, as `printf` is told to write it. -/
def recordField : Text := "\\037%s".toList

/-- `build_filename_search_command`. -/
def buildFilenameSearchCommand (request : LogSearchRequest) : Text :=
  let pattern := '*' :: (request.keyword.flatMap fun c =>
    if ['*', '?', '[', ']', '\\'].contains c then ['\\', c] else [c]) ++ ['*']
  discovery ("-iname ".toList ++ shellQuote pattern) 200
    ++ " | while IFS= read -r qz_file; do qz_size=; qz_modified=; if command -v stat >/dev/null 2>&1; then qz_size=$(stat -c %s -- \"$qz_file\" 2>/dev/null || :); qz_modified=$(stat -c %Y -- \"$qz_file\" 2>/dev/null || :); fi; printf '__QZ_FILE__".toList
    ++ recordField ++ recordField ++ recordField
    ++ "\\n' \"$qz_file\" \"$qz_size\" \"$qz_modified\"; done; exit 0".toList

def logNames : Text :=
  "\\( -name '*.log' -o -name '*.log.*' -o -name '*.out' -o -name '*.err' -o -name 'syslog' -o -name 'messages' -o -name 'secure' -o -name 'auth.log' -o -name 'kern.log' -o -name 'daemon.log' \\) -mtime -30 -size -32M".toList

/-- `build_smart_search_command`. -/
def buildSmartSearchCommand (request : LogSearchRequest) (supportsGzip : Bool) : Text :=
  let formatter := shellQuote
    (recordFormatter (recordField ++ recordField ++ recordField ++ recordField)
      "qz_path, line, kind, text".toList)
  let plain := grepCommand request
    ++ " \"$qz_file\" 2>/dev/null | awk -v qz_path=\"$qz_file\" ".toList ++ formatter
  let gzip := if supportsGzip then
      "gzip -cd -- \"$qz_file\" 2>/dev/null | ".toList ++ grepCommand request
        ++ " | awk -v qz_path=\"$qz_file\" ".toList ++ formatter
    else ":".toList
  discovery logNames 120
    ++ " | while IFS= read -r qz_file; do case \"$qz_file\" in *.gz) ".toList ++ gzip
    ++ " ;; *) ".toList ++ plain ++ " ;; esac; done; exit 0".toList

/-- The commands the remote host has to have. -/
def requiredCommands (request : LogSearchRequest) : List Text :=
  match request.target with
  | .filename => ["find".toList, "awk".toList]
  | .content =>
      if request.isSmartSearch then ["find".toList, "grep".toList, "awk".toList]
      else ["grep".toList, "awk".toList]

/-- `build_search_command`. -/
def buildSearchCommand (request : LogSearchRequest) (capabilities : SystemCapabilities) :
    AppResult Text := do
  request.validate
  match (requiredCommands request).find? fun command => !capabilities.hasCommand command with
  | some command => .error (.compatibility ("日志检索需要远端命令 ".toList ++ command))
  | none =>
      if request.target == .content && !request.isSmartSearch && request.isGzip
          && !capabilities.hasCommand "gzip".toList then
        .error (.compatibility "检索 .gz 日志需要远端命令 gzip".toList)
      else if request.target == .filename then .ok (buildFilenameSearchCommand request)
      else if request.isSmartSearch then
        .ok (buildSmartSearchCommand request (capabilities.hasCommand "gzip".toList))
      else
        let source := if request.isGzip then
            "gzip -cd -- ".toList ++ shellQuote request.path ++ " | ".toList ++ grepCommand request
          else grepCommand request ++ ' ' :: shellQuote request.path
        .ok (source ++ " | awk ".toList ++ shellQuote
          (recordFormatter (recordField ++ recordField ++ recordField) "line, kind, text".toList))

end QingzhouSSH.Core.Logs
