/-
  QingzhouSSH.Core.Updates.Manifest — which release a manifest offers.

  A manifest is untrusted JSON.  What it says of a platform becomes a release if the
  download lies in the repository of its source and every other field keeps its bounds;
  the release is offered if its version is greater than the current one.

  Main results:
    * `validateDownloadUrl_ok` — where an accepted download lies;
    * `UpdateRelease_new_ok` — the bounds of an accepted release;
    * `offered_release_newer_iff` — when an offered release is a newer one.
-/
import Mathlib.Data.List.Lex
import QingzhouSSH.Core.JsonReader
import QingzhouSSH.Domain.Utf8Decoding
import QingzhouSSH.Lib.Digits
import QingzhouSSH.Lib.Semver
import QingzhouSSH.Lib.Splitting
import QingzhouSSH.Lib.Text
import QingzhouSSH.Services.UpdateManager

namespace QingzhouSSH.Core.Updates

open String (utf8Len)
open QingzhouSSH.Domain
open QingzhouSSH.Lib
open QingzhouSSH.Services.UpdateManager (ManifestDecision SourceFailureKind)

/-! ## §1. Addresses and versions. -/

/-- A URL, as its accessors give it. -/
structure Url where
  scheme : Text
  username : Text
  password : Option Text
  hostStr : Option Text
  port : Option Nat
  path : Text
  query : Option Text
  queryPairs : List (Text × Text)
  fragment : Option Text
  deriving DecidableEq

/-- A segment that stands for its directory or the one above it. -/
def isDotSegment (segment : Text) : Bool :=
  let plain := Lib.Text.replace "%2e".toList ['.'] (segment.map Char.toLower)
  plain == ['.'] || plain == ['.', '.']

/-- The `url` crate: an HTTPS URL has an absolute path without dot segments. -/
class UrlCrate where
  parse : Text → Option Url
  plainPath : ∀ {text : Text} {url : Url}, parse text = some url → url.scheme = "https".toList →
    ∀ segment ∈ url.path.splitOn '/', isDotSegment segment = false

/-- The `semver` crate: versions are compared by their total order. -/
class SemverCrate where
  parse : Text → Option Semver.Version
  gt : Semver.Version → Semver.Version → Bool
  gt_iff : ∀ v w, gt v w = true ↔ v.cmp w = .gt

structure SourceCheckError where
  kind : SourceFailureKind
  message : Text
  deriving Repr, DecidableEq

def invalidManifest (message : Text) : SourceCheckError := ⟨.invalidManifest, message⟩

def security (message : Text) : SourceCheckError := ⟨.security, message⟩

/-! ## §2. The policy. -/

def projectName : Text := "QingzhouSSH".toList

def isAsciiAlphanumeric (c : Char) : Bool :=
  ('0' ≤ c ∧ c ≤ '9') ∨ ('A' ≤ c ∧ c ≤ 'Z') ∨ ('a' ≤ c ∧ c ≤ 'z')

def validNamespace (value : Text) : Bool :=
  !value.isEmpty && decide (utf8Len value ≤ 64)
    && value.all fun c => isAsciiAlphanumeric c || c == '-' || c == '_'

structure TrustedSourcePolicy where
  githubOwner : Text
  modelscopeNamespace : Text
  valid : validNamespace githubOwner = true ∧ validNamespace modelscopeNamespace = true

def TrustedSourcePolicy.new (githubOwner modelscopeNamespace : Text) :
    Except SourceCheckError TrustedSourcePolicy :=
  if h : validNamespace githubOwner = true ∧ validNamespace modelscopeNamespace = true then
    .ok ⟨githubOwner, modelscopeNamespace, h⟩
  else .error (security "更新源命名空间无效".toList)

namespace TrustedSourcePolicy

variable (policy : TrustedSourcePolicy)

def githubPrefix : Text :=
  '/' :: policy.githubOwner ++ '/' :: projectName ++ "/releases/download/".toList

def modelscopePath : Text :=
  "/api/v1/models/".toList ++ policy.modelscopeNamespace ++ '/' :: projectName ++ "/repo".toList

def validateGithubUrl (url : Url) : Except SourceCheckError Unit :=
  if url.hostStr ≠ some "github.com".toList ∨ !policy.githubPrefix.isPrefixOf url.path
      ∨ url.query.isSome then
    .error (security "GitHub 更新包不属于固定公开仓库".toList)
  else .ok ()

/-- The loop over the parameters of a ModelScope URL. -/
def readParameters : List (Text × Text) → Option Text → Option Text →
    Except SourceCheckError (Option Text × Option Text)
  | [], revision, filePath => .ok (revision, filePath)
  | (key, value) :: rest, revision, filePath =>
      if key = "Revision".toList ∧ revision.isNone then readParameters rest (some value) filePath
      else if key = "FilePath".toList ∧ filePath.isNone then
        readParameters rest revision (some value)
      else .error (security "ModelScope 更新地址包含未知参数".toList)

def validateModelscopeUrl (url : Url) : Except SourceCheckError Unit :=
  if (url.hostStr ≠ some "modelscope.cn".toList ∧ url.hostStr ≠ some "www.modelscope.cn".toList)
      ∨ url.path ≠ policy.modelscopePath then
    .error (security "ModelScope 更新包不属于固定公开项目".toList)
  else do
    let (revision, filePath) ← readParameters url.queryPairs none none
    match filePath with
    | none => .error (security "ModelScope 更新地址缺少文件路径".toList)
    | some filePath =>
        if revision ≠ some "master".toList ∨ !"releases/".toList.isPrefixOf filePath
            ∨ Lib.Text.contains filePath "..".toList ∨ filePath.contains '\\'
            ∨ ['/'].isPrefixOf filePath then
          .error (security "ModelScope 更新文件越过 releases 目录".toList)
        else .ok ()

def validateDownloadUrl [UrlCrate] (source : UpdateSource) (value : Text) :
    Except SourceCheckError Unit :=
  match UrlCrate.parse value with
  | none => .error (security "更新包地址无效".toList)
  | some url =>
      if url.scheme ≠ "https".toList ∨ !url.username.isEmpty ∨ url.password.isSome
          ∨ url.port.isSome ∨ url.fragment.isSome then
        .error (security "更新包必须使用无凭据的标准 HTTPS 地址".toList)
      else
        match source with
        | .github => policy.validateGithubUrl url
        | .modelscope => policy.validateModelscopeUrl url

end TrustedSourcePolicy

/-! ## §3. Reading a manifest. -/

structure PlatformManifest where
  url : Text
  signature : Text
  sha256 : Text
  size : Nat
  buildId : Text
  deriving Repr, DecidableEq

structure StaticManifest where
  version : Text
  notes : Text
  pubDate : Option Text
  platforms : List (Text × PlatformManifest)
  deriving Repr, DecidableEq

/-- The values of the fields of a structure, by name or in order.  No other field may be
there, and none twice. -/
def structFields (names : List Text) : JsonTree → Option (List (Option JsonTree))
  | .object fields =>
      if (fields.map Prod.fst).all names.contains && decide (fields.map Prod.fst).Nodup then
        some (names.map fun name => (fields.find? fun field => field.1 == name).map Prod.snd)
      else none
  | .array items =>
      if items.length ≤ names.length then
        some (items.map some ++ List.replicate (names.length - items.length) none)
      else none
  | _ => none

def readText : Option JsonTree → Option Text
  | some (.string s) => some s
  | _ => none

def readU64 : Option JsonTree → Option Nat
  | some (.number token) =>
      if !token.isEmpty && token.all Char.isDigit && decide (Semver.numberOf token < 2 ^ 64) then
        some (Semver.numberOf token)
      else none
  | _ => none

def readPlatform (tree : JsonTree) : Option PlatformManifest := do
  match ← structFields ["url".toList, "signature".toList, "sha256".toList, "size".toList,
      "build_id".toList] tree with
  | [url, signature, sha256, size, buildId] =>
      return { url := ← readText url, signature := ← readText signature
               sha256 := ← readText sha256, size := ← readU64 size, buildId := ← readText buildId }
  | _ => none

/-- An entry of the map; of two with the same key, the later one counts. -/
def insertPlatform (platforms : List (Text × PlatformManifest)) (key : Text)
    (platform : PlatformManifest) : List (Text × PlatformManifest) :=
  (key, platform) :: platforms.filter fun other => other.1 != key

def readPlatforms : Option JsonTree → Option (List (Text × PlatformManifest))
  | some (.object entries) =>
      entries.foldlM (fun platforms entry => do
        let platform ← readPlatform entry.2
        return insertPlatform platforms entry.1 platform) []
  | _ => none

def readNotes : Option JsonTree → Option Text
  | none => some []
  | value => readText value

def readPubDate : Option JsonTree → Option (Option Text)
  | none | some .null => some none
  | value => (readText value).map some

def readManifest (tree : JsonTree) : Option StaticManifest := do
  match ← structFields ["version".toList, "notes".toList, "pub_date".toList,
      "platforms".toList] tree with
  | [version, notes, pubDate, platforms] =>
      return { version := ← readText version, notes := ← readNotes notes
               pubDate := ← readPubDate pubDate, platforms := ← readPlatforms platforms }
  | _ => none

/-- `serde_json::from_slice`. -/
def manifestFromSlice (bytes : List UInt8) : Option StaticManifest :=
  match fromUtf8 bytes with
  | .error _ => none
  | .ok text => (JsonTree.fromStr text).bind readManifest

def StaticManifest.platform (manifest : StaticManifest) (key : Text) : Option PlatformManifest :=
  (manifest.platforms.find? fun entry => entry.1 == key).map Prod.snd

/-! ## §4. The release. -/

inductive UpdateValidationError where
  | invalidVersion
  | invalidPlatform
  | invalidSignature
  | invalidSha256
  | invalidSize
  | invalidBuildId
  | invalidUrl
  deriving Repr, DecidableEq

def UpdateValidationError.message : UpdateValidationError → Text
  | .invalidVersion => "更新版本不是有效的 SemVer".toList
  | .invalidPlatform => "更新平台不受支持".toList
  | .invalidSignature => "更新签名缺失或过长".toList
  | .invalidSha256 => "更新 SHA-256 格式无效".toList
  | .invalidSize => "更新包大小无效".toList
  | .invalidBuildId => "更新构建标识无效".toList
  | .invalidUrl => "更新下载地址为空".toList

def maxUpdateBytes : Nat := 512 * 1024 * 1024

def supportedUpdatePlatforms : List Text :=
  ["windows-x86_64-nsis".toList, "windows-aarch64-nsis".toList, "macos-x86_64-dmg".toList,
    "macos-aarch64-dmg".toList, "linux-x86_64-appimage".toList, "linux-aarch64-appimage".toList,
    "windows-x86_64".toList]

def isDigestChar (c : Char) : Bool := ('0' ≤ c ∧ c ≤ '9') ∨ ('a' ≤ c ∧ c ≤ 'f')

/-- `Sha256Digest::parse`. -/
def sha256Parse (value : Text) : Except UpdateValidationError Text :=
  if utf8Len value = 64 ∧ value.all isDigestChar then .ok value else .error .invalidSha256

section Releases

variable [SemverCrate]

/-- `UpdateRelease::new`, whose input has the fields of a release. -/
def UpdateRelease_new (input : UpdateRelease) : Except UpdateValidationError UpdateRelease :=
  if (SemverCrate.parse input.version).isNone then .error .invalidVersion
  else if !supportedUpdatePlatforms.contains input.platform then .error .invalidPlatform
  else if isBlankText input.downloadUrl then .error .invalidUrl
  else if isBlankText input.signature ∨ 16 * 1024 < utf8Len input.signature then
    .error .invalidSignature
  else if input.size = 0 ∨ maxUpdateBytes < input.size then .error .invalidSize
  else if isBlankText input.buildId ∨ 128 < utf8Len input.buildId then .error .invalidBuildId
  else do
    let sha256 ← sha256Parse input.sha256
    return { input with sha256 := sha256 }

def isNewerThan (release : UpdateRelease) (current : Text) : Except UpdateValidationError Bool :=
  match SemverCrate.parse release.version with
  | none => .error .invalidVersion
  | some candidate =>
      match SemverCrate.parse current with
      | none => .error .invalidVersion
      | some current => .ok (SemverCrate.gt candidate current)

end Releases

/-! ## §5. The decision. -/

def maxManifestBytes : Nat := 128 * 1024

/-- The entry of this platform, or the one under the name it had before. -/
def selectPlatform (manifest : StaticManifest) (platformKey : Text) :
    Except SourceCheckError (Text × PlatformManifest) :=
  match manifest.platform platformKey with
  | some platform => .ok (platformKey, platform)
  | none =>
      if platformKey = "windows-x86_64-nsis".toList then
        match manifest.platform "windows-x86_64".toList with
        | some platform => .ok ("windows-x86_64".toList, platform)
        | none => .error (invalidManifest ("更新清单缺少当前平台 ".toList ++ platformKey))
      else .error (invalidManifest ("更新清单缺少当前平台 ".toList ++ platformKey))

def mapValidationError {α : Type} (result : Except UpdateValidationError α) :
    Except SourceCheckError α :=
  result.mapError fun error => invalidManifest error.message

/-- `parse_manifest_for_platform`. -/
def parseManifestForPlatform [UrlCrate] [SemverCrate] (policy : TrustedSourcePolicy)
    (source : UpdateSource) (currentVersion : Text) (bytes : List UInt8) (platformKey : Text) :
    Except SourceCheckError ManifestDecision :=
  if bytes.isEmpty ∨ maxManifestBytes < bytes.length then
    .error (invalidManifest "更新清单大小无效".toList)
  else
    match manifestFromSlice bytes with
    | none => .error (invalidManifest "更新清单格式无效".toList)
    | some manifest => do
        let (selectedKey, platform) ← selectPlatform manifest platformKey
        policy.validateDownloadUrl source platform.url
        let release ← mapValidationError (UpdateRelease_new
          { version := manifest.version, notes := manifest.notes, publishedAt := manifest.pubDate
            platform := selectedKey, downloadUrl := platform.url, signature := platform.signature
            sha256 := platform.sha256, size := platform.size, buildId := platform.buildId
            source := source })
        if ← mapValidationError (isNewerThan release currentVersion) then
          return .available release
        else return .upToDate

/-! ## §6. Where an accepted download lies. -/

/-- HTTPS on the usual port, without credentials. -/
structure PlainHttps (url : Url) : Prop where
  scheme : url.scheme = "https".toList
  username : url.username = []
  password : url.password = none
  port : url.port = none
  fragment : url.fragment = none

/-- The fixed repository of a source. -/
def InRepository (policy : TrustedSourcePolicy) : UpdateSource → Url → Prop
  | .github, url =>
      url.hostStr = some "github.com".toList ∧ url.query = none
        ∧ ∃ rest, url.path.splitOn '/' = [] :: policy.githubOwner :: projectName
            :: "releases".toList :: "download".toList :: rest
          ∧ ∀ segment ∈ rest, isDotSegment segment = false
  | .modelscope, url =>
      (url.hostStr = some "modelscope.cn".toList ∨ url.hostStr = some "www.modelscope.cn".toList)
        ∧ url.path = policy.modelscopePath
        ∧ ∃ file, url.queryPairs.Perm
            [("Revision".toList, "master".toList), ("FilePath".toList, "releases/".toList ++ file)]
          ∧ '\\' ∉ file ∧ ∀ segment ∈ file.splitOn '/', segment ≠ "..".toList

/-- The parameter that a loop has found, if it had not found it before. -/
def found (name : Text) : Option Text → Option Text → List (Text × Text)
  | none, some value => [(name, value)]
  | _, _ => []

theorem found_some (name value : Text) (after : Option Text) :
    found name (some value) after = [] := rfl

theorem found_self (name : Text) (before : Option Text) : found name before before = [] := by
  cases before with
  | none => rfl
  | some value => rfl

/-- **Every parameter is one of the two, and none is there twice.** -/
theorem readParameters_ok {pairs : List (Text × Text)} {revision filePath revision' filePath' :
    Option Text}
    (h : TrustedSourcePolicy.readParameters pairs revision filePath = .ok (revision', filePath')) :
    pairs.Perm (found "Revision".toList revision revision'
        ++ found "FilePath".toList filePath filePath')
      ∧ (revision.isSome → revision' = revision) ∧ (filePath.isSome → filePath' = filePath) := by
  induction pairs generalizing revision filePath with
  | nil =>
      obtain ⟨rfl, rfl⟩ := Prod.mk.inj (Except.ok.inj h)
      rw [found_self, found_self]
      exact ⟨List.Perm.refl _, fun _ => rfl, fun _ => rfl⟩
  | cons pair rest ih =>
      obtain ⟨key, value⟩ := pair
      unfold TrustedSourcePolicy.readParameters at h
      by_cases hrevision : key = "Revision".toList ∧ revision.isNone
      · rw [if_pos hrevision] at h
        obtain ⟨hperm, hkept, hfile⟩ := ih h
        obtain ⟨rfl, hnone⟩ := hrevision
        obtain rfl := Option.isNone_iff_eq_none.mp hnone
        obtain rfl := hkept rfl
        exact ⟨hperm.cons _, fun hsome => absurd hsome (by simp), hfile⟩
      rw [if_neg hrevision] at h
      by_cases hfilePath : key = "FilePath".toList ∧ filePath.isNone
      · rw [if_pos hfilePath] at h
        obtain ⟨hperm, hkept, hfile⟩ := ih h
        obtain ⟨rfl, hnone⟩ := hfilePath
        obtain rfl := Option.isNone_iff_eq_none.mp hnone
        obtain rfl := hfile rfl
        rw [found_some, List.append_nil] at hperm
        refine ⟨?_, hkept, fun hsome => absurd hsome (by simp)⟩
        exact (hperm.cons _).trans (List.perm_append_singleton _ _).symm
      · rw [if_neg hfilePath] at h
        exact absurd h (by simp)

namespace TrustedSourcePolicy

variable {policy : TrustedSourcePolicy} {url : Url}

theorem slash_not_mem_of_valid {value : Text} (h : validNamespace value = true) : '/' ∉ value := by
  unfold validNamespace at h
  simp only [Bool.and_eq_true, List.all_eq_true] at h
  intro hmem
  exact absurd (h.2 '/' hmem) (by decide)

/-- A text that starts with the prefix has the segments of the prefix first. -/
theorem splitOn_githubPrefix (rest : Text) :
    (policy.githubPrefix ++ rest).splitOn '/'
      = [] :: policy.githubOwner :: projectName :: "releases".toList :: "download".toList
        :: rest.splitOn '/' := by
  have htext : policy.githubPrefix ++ rest
      = [] ++ '/' :: (policy.githubOwner ++ '/' :: (projectName
        ++ '/' :: ("releases".toList ++ '/' :: ("download".toList ++ '/' :: rest)))) := by
    have htail : "/releases/download/".toList
        = '/' :: ("releases".toList ++ '/' :: ("download".toList ++ ['/'])) := rfl
    unfold githubPrefix
    rw [htail]
    simp only [List.cons_append, List.append_assoc, List.nil_append]
  rw [htext, List.splitOn_append_cons_self_of_not_mem List.not_mem_nil,
    List.splitOn_append_cons_self_of_not_mem (slash_not_mem_of_valid policy.valid.1),
    List.splitOn_append_cons_self_of_not_mem (by decide),
    List.splitOn_append_cons_self_of_not_mem (by decide),
    List.splitOn_append_cons_self_of_not_mem (by decide)]

theorem validateGithubUrl_ok (h : policy.validateGithubUrl url = .ok ())
    (hplain : ∀ segment ∈ url.path.splitOn '/', isDotSegment segment = false) :
    InRepository policy .github url := by
  unfold validateGithubUrl at h
  split at h
  next => exact absurd h (by simp)
  next hchecks =>
    simp only [not_or, ne_eq, not_not, Bool.not_eq_true', Bool.not_eq_false,
      Bool.not_eq_true, Option.isSome_eq_false_iff, Option.isNone_iff_eq_none] at hchecks
    obtain ⟨hhost, hprefix, hquery⟩ := hchecks
    obtain ⟨rest, hrest⟩ := List.isPrefixOf_iff_prefix.mp hprefix
    have hsegments := @splitOn_githubPrefix policy rest
    rw [hrest] at hsegments
    refine ⟨hhost, hquery, rest.splitOn '/', hsegments, ?_⟩
    intro segment hsegment
    apply hplain segment
    rw [hsegments]
    simp only [List.mem_cons, hsegment, or_true]

theorem validateModelscopeUrl_ok (h : policy.validateModelscopeUrl url = .ok ()) :
    InRepository policy .modelscope url := by
  unfold validateModelscopeUrl at h
  split at h
  next => exact absurd h (by simp)
  next hproject =>
    simp only [not_or, not_and_or, ne_eq, not_not] at hproject
    obtain ⟨hhost, hpath⟩ := hproject
    cases hread : readParameters url.queryPairs none none with
    | error e =>
        rw [hread] at h
        exact absurd h (by simp [bind, Except.bind])
    | ok parameters =>
        obtain ⟨revision, filePath⟩ := parameters
        rw [hread] at h
        simp only [bind, Except.bind] at h
        cases filePath with
        | none => exact absurd h (by simp)
        | some filePath =>
            dsimp only at h
            split at h
            next => exact absurd h (by simp)
            next hchecks =>
              simp only [not_or, ne_eq, not_not, Bool.not_eq_true', Bool.not_eq_false,
                Bool.not_eq_true, Lib.Text.contains_eq_false] at hchecks
              obtain ⟨rfl, hprefix, hparent, hbackslash, _⟩ := hchecks
              obtain ⟨file, rfl⟩ := List.isPrefixOf_iff_prefix.mp hprefix
              refine ⟨hhost, hpath, file, (readParameters_ok hread).1, ?_, ?_⟩
              · intro hmem
                have hcontains : ("releases/".toList ++ file).contains '\\' = true :=
                  List.contains_iff_mem.mpr (List.mem_append_right _ hmem)
                rw [hbackslash] at hcontains
                exact absurd hcontains (by simp)
              · rintro segment hsegment rfl
                apply hparent
                exact (Splitting.infix_of_mem_splitOn hsegment).trans (List.suffix_append _ _).isInfix

/-- **Where an accepted download lies.** -/
theorem validateDownloadUrl_ok [UrlCrate] {source : UpdateSource} {value : Text}
    (h : policy.validateDownloadUrl source value = .ok ()) :
    ∃ url, UrlCrate.parse value = some url ∧ PlainHttps url ∧ InRepository policy source url := by
  unfold validateDownloadUrl at h
  cases hparse : UrlCrate.parse value with
  | none =>
      rw [hparse] at h
      exact absurd h (by simp)
  | some url =>
      rw [hparse] at h
      dsimp only at h
      split at h
      next => exact absurd h (by simp)
      next hchecks =>
        simp only [not_or, ne_eq, not_not, Bool.not_eq_true', Bool.not_eq_false,
          Bool.not_eq_true, Option.isSome_eq_false_iff, Option.isNone_iff_eq_none,
          List.isEmpty_iff] at hchecks
        obtain ⟨hscheme, husername, hpassword, hport, hfragment⟩ := hchecks
        refine ⟨url, rfl, ⟨hscheme, husername, hpassword, hport, hfragment⟩, ?_⟩
        cases source with
        | github => exact validateGithubUrl_ok h (UrlCrate.plainPath hparse hscheme)
        | modelscope => exact validateModelscopeUrl_ok h

end TrustedSourcePolicy

/-! ## §7. What is offered. -/

/-- The bounds of a release. -/
structure WithinBounds (release : UpdateRelease) : Prop where
  size : 0 < release.size ∧ release.size ≤ maxUpdateBytes
  digest : utf8Len release.sha256 = 64 ∧ ∀ c ∈ release.sha256, isDigestChar c = true
  signature : isBlankText release.signature = false ∧ utf8Len release.signature ≤ 16 * 1024
  buildId : isBlankText release.buildId = false ∧ utf8Len release.buildId ≤ 128

theorem sha256Parse_ok {value digest : Text} (h : sha256Parse value = .ok digest) :
    digest = value ∧ utf8Len value = 64 ∧ ∀ c ∈ value, isDigestChar c = true := by
  unfold sha256Parse at h
  by_cases hvalid : utf8Len value = 64 ∧ value.all isDigestChar
  · rw [if_pos hvalid] at h
    exact ⟨(Except.ok.inj h).symm, hvalid.1, List.all_eq_true.mp hvalid.2⟩
  · rw [if_neg hvalid] at h
    exact absurd h (by simp)

/-- **The bounds of an accepted release**, which is the input as it is. -/
theorem UpdateRelease_new_ok [SemverCrate] {input release : UpdateRelease}
    (h : UpdateRelease_new input = .ok release) : release = input ∧ WithinBounds input := by
  unfold UpdateRelease_new at h
  split at h
  next => exact absurd h (by simp)
  split at h
  next => exact absurd h (by simp)
  split at h
  next => exact absurd h (by simp)
  split at h
  next => exact absurd h (by simp)
  next hsignature =>
    split at h
    next => exact absurd h (by simp)
    next hsize =>
      split at h
      next => exact absurd h (by simp)
      next hbuildId =>
        simp only [not_or, Bool.not_eq_true, Nat.not_lt] at hsignature hsize hbuildId
        cases hdigest : sha256Parse input.sha256 with
        | error e =>
            rw [hdigest] at h
            exact absurd h (by simp [bind, Except.bind])
        | ok digest =>
            rw [hdigest] at h
            obtain ⟨rfl, hlength, hchars⟩ := sha256Parse_ok hdigest
            exact ⟨(Except.ok.inj h).symm, ⟨Nat.pos_of_ne_zero hsize.1, hsize.2⟩,
              ⟨hlength, hchars⟩, hsignature, hbuildId⟩

theorem isNewerThan_ok [SemverCrate] {release : UpdateRelease} {current : Text} {newer : Bool}
    (h : isNewerThan release current = .ok newer) :
    ∃ candidate installed, SemverCrate.parse release.version = some candidate
      ∧ SemverCrate.parse current = some installed ∧ newer = SemverCrate.gt candidate installed := by
  unfold isNewerThan at h
  cases hcandidate : SemverCrate.parse release.version with
  | none =>
      rw [hcandidate] at h
      exact absurd h (by simp)
  | some candidate =>
      rw [hcandidate] at h
      dsimp only at h
      cases hcurrent : SemverCrate.parse current with
      | none =>
          rw [hcurrent] at h
          exact absurd h (by simp)
      | some installed =>
          rw [hcurrent] at h
          exact ⟨candidate, installed, rfl, rfl, (Except.ok.inj h).symm⟩

theorem selectPlatform_ok {manifest : StaticManifest} {platformKey selectedKey : Text}
    {platform : PlatformManifest}
    (h : selectPlatform manifest platformKey = .ok (selectedKey, platform)) :
    selectedKey = platformKey
      ∨ (platformKey = "windows-x86_64-nsis".toList ∧ selectedKey = "windows-x86_64".toList) := by
  unfold selectPlatform at h
  cases hexact : manifest.platform platformKey with
  | some exact =>
      rw [hexact] at h
      exact Or.inl (Prod.mk.inj (Except.ok.inj h)).1.symm
  | none =>
      rw [hexact] at h
      dsimp only at h
      split at h
      next hkey =>
        split at h
        next => exact Or.inr ⟨hkey, (Prod.mk.inj (Except.ok.inj h)).1.symm⟩
        next => exact absurd h (by simp)
      next => exact absurd h (by simp)

theorem mapValidationError_ok {α : Type} {result : Except UpdateValidationError α} {value : α}
    (h : mapValidationError result = .ok value) : result = .ok value := by
  cases result with
  | error e => exact absurd h (by simp [mapValidationError, Except.mapError])
  | ok value' => exact congrArg Except.ok (Except.ok.inj h)

/-- A release from the repository of its source, for this platform, within its bounds. -/
structure TrustedRelease [UrlCrate] (policy : TrustedSourcePolicy) (requested : UpdateSource)
    (platformKey : Text) (release : UpdateRelease) : Prop where
  platform : release.platform = platformKey
    ∨ (platformKey = "windows-x86_64-nsis".toList ∧ release.platform = "windows-x86_64".toList)
  bounds : WithinBounds release
  source : release.source = requested
  download : ∃ url, UrlCrate.parse release.downloadUrl = some url ∧ PlainHttps url
    ∧ InRepository policy requested url

/-- The precedence of a version over another one, where both are versions. -/
def precedenceOf [SemverCrate] (version current : Text) : Option Ordering := do
  let version ← SemverCrate.parse version
  let current ← SemverCrate.parse current
  return version.precedence current

section Decision

variable [UrlCrate] [SemverCrate] {policy : TrustedSourcePolicy} {source : UpdateSource}
  {currentVersion platformKey : Text} {bytes : List UInt8} {release : UpdateRelease}

/-- What an offered release was read from, and what it is. -/
theorem parseManifest_available
    (h : parseManifestForPlatform policy source currentVersion bytes platformKey
      = .ok (.available release)) :
    ∃ manifest candidate installed, manifestFromSlice bytes = some manifest
      ∧ release.version = manifest.version
      ∧ SemverCrate.parse manifest.version = some candidate
      ∧ SemverCrate.parse currentVersion = some installed
      ∧ SemverCrate.gt candidate installed = true
      ∧ TrustedRelease policy source platformKey release := by
  unfold parseManifestForPlatform at h
  split at h
  next => exact absurd h (by simp)
  cases hmanifest : manifestFromSlice bytes with
  | none =>
      rw [hmanifest] at h
      exact absurd h (by simp)
  | some manifest =>
      rw [hmanifest] at h
      dsimp only at h
      obtain ⟨⟨selectedKey, platform⟩, hselect, h⟩ := bind_eq_ok.mp h
      obtain ⟨_, hurl, h⟩ := bind_eq_ok.mp h
      obtain ⟨accepted, haccepted, h⟩ := bind_eq_ok.mp h
      obtain ⟨newer, hnewer, h⟩ := bind_eq_ok.mp h
      obtain ⟨rfl, hbounds⟩ := UpdateRelease_new_ok (mapValidationError_ok haccepted)
      obtain ⟨candidate, installed, hcandidate, hinstalled, rfl⟩ :=
        isNewerThan_ok (mapValidationError_ok hnewer)
      by_cases hgt : SemverCrate.gt candidate installed = true
      · rw [if_pos hgt] at h
        obtain rfl := ManifestDecision.available.inj (Except.ok.inj h)
        exact ⟨manifest, candidate, installed, rfl, rfl, hcandidate, hinstalled, hgt,
          selectPlatform_ok hselect, hbounds, rfl,
          TrustedSourcePolicy.validateDownloadUrl_ok hurl⟩
      · rw [if_neg hgt] at h
        exact absurd (Except.ok.inj h) (by simp)

/-- **When an offered release is a newer one.**  It always comes from the repository of its
source, for the platform, within its bounds; it has a higher precedence than the current
version unless the two versions have the same precedence. -/
theorem offered_release_newer_iff (policy : TrustedSourcePolicy) (source : UpdateSource)
    (currentVersion : Text) (bytes : List UInt8) (platformKey : Text) {release : UpdateRelease}
    (h : parseManifestForPlatform policy source currentVersion bytes platformKey
      = .ok (.available release)) :
    ∃ manifest, manifestFromSlice bytes = some manifest
      ∧ ((TrustedRelease policy source platformKey release
          ∧ precedenceOf release.version currentVersion = some .gt)
        ↔ precedenceOf manifest.version currentVersion ≠ some .eq) := by
  obtain ⟨manifest, candidate, installed, hmanifest, hversion, hcandidate, hinstalled, hgt,
    htrusted⟩ := parseManifest_available h
  have hprecedence : precedenceOf manifest.version currentVersion
      = some (candidate.precedence installed) := by
    unfold precedenceOf
    rw [hcandidate, hinstalled]
    rfl
  refine ⟨manifest, hmanifest, ?_⟩
  rw [hversion, hprecedence]
  have hlater := (candidate.cmp_eq_gt installed).mp ((SemverCrate.gt_iff _ _).mp hgt)
  constructor
  · rintro ⟨_, hnewer⟩ hsame
    rw [hsame] at hnewer
    exact absurd hnewer (by decide)
  · intro hdiffer
    refine ⟨htrusted, ?_⟩
    rcases hlater with hnewer | ⟨hsame, _⟩
    · rw [hnewer]
    · exact absurd (congrArg some hsame) hdiffer

end Decision

/-! ## §8. A build of the version that is installed. -/

/-- URLs without anything but a host and a path of plain characters. -/
def readPlainUrl (text : Text) : Option Url :=
  match "https://".toList.isPrefixOf? text with
  | none => none
  | some rest =>
      let host := rest.takeWhile (· != '/')
      let path := rest.dropWhile (· != '/')
      if !host.isEmpty && host.all (fun c => isAsciiAlphanumeric c || c == '.')
          && !path.isEmpty
          && path.all (fun c => isAsciiAlphanumeric c || c == '.' || c == '/' || c == '-')
          && (path.splitOn '/').all fun segment => !isDotSegment segment then
        some { scheme := "https".toList, username := [], password := none, hostStr := some host
               port := none, path := path, query := none, queryPairs := [], fragment := none }
      else none

@[reducible] def plainUrls : UrlCrate where
  parse := readPlainUrl
  plainPath := by
    intro text url h _ segment hsegment
    unfold readPlainUrl at h
    split at h
    next => exact absurd h (by simp)
    next rest hrest =>
      dsimp only at h
      split at h
      next hchecks =>
        obtain rfl := Option.some.inj h
        simp only [Bool.and_eq_true, List.all_eq_true, Bool.not_eq_true'] at hchecks
        exact hchecks.2 segment hsegment
      next => exact absurd h (by simp)

@[reducible] def semver2 : SemverCrate where
  parse := Semver.parse
  gt v w := v.cmp w == .gt
  gt_iff _ _ := beq_iff_eq

section Sample

open JsonTree

def textField (key : String) (value : Text) : FieldText where
  key := key.toList
  text := Value.jsonString value
  tree := .string value
  reads := reads_string value

def natField (key : String) (n : Nat) : FieldText where
  key := key.toList
  text := showNat n
  tree := .number (showNat n)
  reads := reads_nat n

def objectField (key : String) (fields : List FieldText) : FieldText where
  key := key.toList
  text := objectText fields
  tree := .object (fields.map FieldText.read)
  reads := reads_object fields

def samplePlatform : PlatformManifest where
  url := "https://github.com/o/QingzhouSSH/releases/download/v1/a".toList
  signature := ['s']
  sha256 := List.replicate 64 'a'
  size := 1
  buildId := ['b']

/-- A manifest of this version for one platform. -/
def manifestFields (version : Text) : List FieldText :=
  [textField "version" version,
    objectField "platforms"
      [objectField "linux-x86_64-appimage"
        [textField "url" samplePlatform.url, textField "signature" samplePlatform.signature,
          textField "sha256" samplePlatform.sha256, natField "size" samplePlatform.size,
          textField "build_id" samplePlatform.buildId]]]

def manifestBytes (version : Text) : List UInt8 :=
  (objectText (manifestFields version)).flatMap String.utf8EncodeChar

theorem manifestFromSlice_sample (version : Text) :
    manifestFromSlice (manifestBytes version)
      = some { version := version, notes := [], pubDate := none
               platforms := [("linux-x86_64-appimage".toList, samplePlatform)] } := by
  unfold manifestFromSlice manifestBytes
  rw [fromUtf8_flatMap]
  dsimp only
  rw [fromStr_of_reads (reads_object _)]
  rfl

end Sample

def samplePolicy : TrustedSourcePolicy := ⟨['o'], ['m'], by decide⟩

def sampleRelease (version : Text) : UpdateRelease where
  version := version
  notes := []
  publishedAt := none
  platform := "linux-x86_64-appimage".toList
  downloadUrl := samplePlatform.url
  signature := samplePlatform.signature
  sha256 := samplePlatform.sha256
  size := samplePlatform.size
  buildId := samplePlatform.buildId
  source := .github

def sampleDecision (version : Text) : Except SourceCheckError ManifestDecision :=
  @parseManifestForPlatform plainUrls semver2 samplePolicy .github "1.0.0".toList
    (manifestBytes version) "linux-x86_64-appimage".toList

/-- A version and a build of the current one are both offered. -/
theorem sampleDecision_available :
    ∀ version ∈ ["1.1.0".toList, "1.0.0+1".toList],
      sampleDecision version = .ok (.available (sampleRelease version)) := by
  intro version hversion
  have hbytes : ¬ ((manifestBytes version).isEmpty = true
      ∨ maxManifestBytes < (manifestBytes version).length) := by
    revert version
    decide +kernel
  unfold sampleDecision parseManifestForPlatform
  rw [if_neg hbytes, manifestFromSlice_sample]
  revert version
  decide +kernel

theorem offered_release_newer_iff_minor :
    sampleDecision "1.1.0".toList = .ok (.available (sampleRelease "1.1.0".toList))
      ∧ @TrustedRelease plainUrls samplePolicy .github "linux-x86_64-appimage".toList
        (sampleRelease "1.1.0".toList)
      ∧ @precedenceOf semver2 "1.1.0".toList "1.0.0".toList = some .gt := by
  have havailable := sampleDecision_available "1.1.0".toList List.mem_cons_self
  obtain ⟨manifest, hmanifest, hiff⟩ := @offered_release_newer_iff plainUrls semver2 samplePolicy
    .github "1.0.0".toList (manifestBytes "1.1.0".toList) "linux-x86_64-appimage".toList _ havailable
  rw [manifestFromSlice_sample] at hmanifest
  obtain rfl := Option.some.inj hmanifest
  exact ⟨havailable, hiff.mpr (by decide +kernel)⟩

/-- Another build of the version that is installed is offered. -/
theorem same_precedence_offered :
    sampleDecision "1.0.0+1".toList = .ok (.available (sampleRelease "1.0.0+1".toList))
      ∧ @precedenceOf semver2 (sampleRelease "1.0.0+1".toList).version "1.0.0".toList
        = some .eq :=
  ⟨sampleDecision_available _ (List.mem_cons_of_mem _ List.mem_cons_self), by decide +kernel⟩

end QingzhouSSH.Core.Updates
