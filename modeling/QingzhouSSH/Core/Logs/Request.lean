/-
  QingzhouSSH.Core.Logs.Request — what may be searched for.
-/
import QingzhouSSH.Core.Tasks.Parameters

namespace QingzhouSSH.Core.Logs

open String (utf8Len)
open QingzhouSSH.Core.Tasks (toAsciiLower isAsciiDigit)

inductive LogSearchTarget where
  | content
  | filename
  deriving Repr, DecidableEq

/-- `as_str`. -/
def LogSearchTarget.asStr : LogSearchTarget → Text
  | .content => "content".toList
  | .filename => "filename".toList

structure LogSearchRequest where
  target : LogSearchTarget
  path : Text
  keyword : Text
  caseSensitive : Bool
  contextLines : Nat
  limit : Nat
  startTime : Option Text
  endTime : Option Text
  deriving Repr, DecidableEq

namespace LogSearchRequest

/-- `valid_time`. -/
def validTime (value : Text) : Bool :=
  !value.isEmpty && utf8Len value ≤ 64
    && value.all fun c => isAsciiDigit c || ['-', ':', '.', '+', 'T', 'Z', ' '].contains c

/-- `validate_filename_search`. -/
def validateFilenameSearch (request : LogSearchRequest) : AppResult Unit :=
  if !request.path.isEmpty then .error (.validation "按文件名查找时不能指定日志路径".toList)
  else if request.keyword.isEmpty || 256 < utf8Len request.keyword
      || request.keyword.any fun c => ['\x00', '\r', '\n', '\x1f'].contains c then
    .error (.validation "文件名关键字必须为 1 到 256 字节，且不能包含控制字符".toList)
  else if request.caseSensitive || request.contextLines != 0
      || !(1 ≤ request.limit && request.limit ≤ 200)
      || request.startTime.isSome || request.endTime.isSome then
    .error (.validation "文件名查找参数无效：仅支持忽略大小写、最多 200 个结果".toList)
  else .ok ()

/-- The checks of a content search. -/
def validateContentSearch (request : LogSearchRequest) : AppResult Unit :=
  if !request.path.isEmpty
      && (request.path.head? != some '/' || request.path.contains '\x00'
        || (request.path.splitOn '/').contains ['.', '.'] || request.path.getLast? == some '/') then
    .error (.validation "指定日志路径必须是远程文件的绝对路径".toList)
  else if request.keyword.isEmpty || request.keyword.contains '\x00'
      || 512 < utf8Len request.keyword then
    .error (.validation "日志关键词无效或超过 512 字节".toList)
  else if 20 < request.contextLines then
    .error (.validation "日志上下文不能超过 20 行".toList)
  else if !(1 ≤ request.limit && request.limit ≤ 10000) then
    .error (.validation "日志结果上限必须在 1 到 10000 之间".toList)
  else if request.startTime.any (fun value => !validTime value)
      || request.endTime.any (fun value => !validTime value) then
    .error (.validation "日志时间范围格式无效".toList)
  else
    match request.startTime, request.endTime with
    | some start, some stop =>
        if stop < start then .error (.validation "日志开始时间不能晚于结束时间".toList) else .ok ()
    | _, _ => .ok ()

def validate (request : LogSearchRequest) : AppResult Unit :=
  match request.target with
  | .filename => request.validateFilenameSearch
  | .content => request.validateContentSearch

def isGzip (request : LogSearchRequest) : Bool :=
  ".gz".toList.isSuffixOf (request.path.map toAsciiLower)

def isSmartSearch (request : LogSearchRequest) : Bool :=
  request.target == .content && request.path.isEmpty

end LogSearchRequest

end QingzhouSSH.Core.Logs
