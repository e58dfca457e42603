/-
  QingzhouSSH.Core.RestorePaths — the paths of backup files.

  A backup of a task lies in `backups/tasks`, in the directory of its run; a backup of an
  upload lies in `backups/workflows`, in the directories of its run and node.  The last
  name comes from the remote target: it is made safe, cut and marked with a digest.

  Main results:
    * `pathComponents_join` — the components of a path that is joined from safe names;
    * `taskPath_of_ok`, `pointPath_of_ok` — where the two builders put a backup;
    * `backup_paths_confined_distinct` — every path of a capture is confined, accepted by
      the tables, and its own.
-/
import QingzhouSSH.Core.Tasks.Recovery
import QingzhouSSH.Repositories.WorkflowRestorePoints

namespace QingzhouSSH.Core.RestorePaths

open String (utf8Len utf8Len_cons utf8Len_append)
open QingzhouSSH.Domain (Uuid)
open QingzhouSSH.Core.Tasks
open QingzhouSSH.Core.Workflows (validateConfig validateRemotePath)
open QingzhouSSH.Repositories.OperationRestoreRepository (PathComponent laterComponents
  pathComponents requireDescendant)
open QingzhouSSH.Repositories.WorkflowRestorePoints (validateConfinedRelativePath
  validateRestorePointRelativePath)

/-! ## §1. Safe names. -/

def isAssetChar (c : Char) : Bool :=
  isAsciiAlphanumeric c || c == '.' || c == '-' || c == '_'

/-- The loop of `pop`, over the text from its end. -/
def popReversed (limit : Nat) : Text → Text
  | [] => []
  | c :: rest => if limit < utf8Len (c :: rest) then popReversed limit rest else c :: rest

def popTo (limit : Nat) (name : Text) : Text := (popReversed limit name.reverse).reverse

/-- The sanitiser of both builders, with the name that replaces an unusable one. -/
def safeName (fallback value : Text) : Text :=
  let name := popTo 96 (value.map fun c => if isAssetChar c then c else '_')
  if name = [] ∨ name = ['.'] ∨ name = ['.', '.'] then fallback else name

/-- `safe_asset_name`. -/
def safeAssetName (value : Text) : Text := safeName "remote-state".toList value

/-- A name that can stand in a path as it is. -/
structure IsSegment (name : Text) : Prop where
  chars : ∀ c ∈ name, isAssetChar c = true
  nonempty : name ≠ []
  not_current : name ≠ ['.']
  not_parent : name ≠ ['.', '.']

theorem utf8Len_reverse (s : Text) : utf8Len s.reverse = utf8Len s := by
  induction s with
  | nil => rfl
  | cons c s ih => simp [ih, utf8Len_append, Nat.add_comm]

theorem popReversed_spec (limit : Nat) (s : Text) :
    popReversed limit s <:+ s ∧ utf8Len (popReversed limit s) ≤ limit := by
  induction s with
  | nil => exact ⟨List.suffix_refl _, Nat.zero_le _⟩
  | cons c s ih =>
      unfold popReversed
      by_cases hlong : limit < utf8Len (c :: s)
      · rw [if_pos hlong]
        exact ⟨ih.1.trans (List.suffix_cons c s), ih.2⟩
      · rw [if_neg hlong]
        exact ⟨List.suffix_refl _, by omega⟩

theorem mem_of_mem_popTo {limit : Nat} {name : Text} {c : Char} (h : c ∈ popTo limit name) :
    c ∈ name := by
  have hmem : c ∈ popReversed limit name.reverse := List.mem_reverse.mp h
  exact List.mem_reverse.mp ((popReversed_spec limit name.reverse).1.subset hmem)

theorem utf8Len_popTo (limit : Nat) (name : Text) : utf8Len (popTo limit name) ≤ limit := by
  unfold popTo
  rw [utf8Len_reverse]
  exact (popReversed_spec limit name.reverse).2

/-- **A safe name is a segment of at most 96 bytes**, if its replacement is. -/
theorem safeName_spec {fallback : Text} (hfallback : IsSegment fallback)
    (hshort : utf8Len fallback ≤ 96) (value : Text) :
    IsSegment (safeName fallback value) ∧ utf8Len (safeName fallback value) ≤ 96 := by
  unfold safeName
  dsimp only
  by_cases hbad : popTo 96 (value.map fun c => if isAssetChar c then c else '_') = []
      ∨ popTo 96 (value.map fun c => if isAssetChar c then c else '_') = ['.']
      ∨ popTo 96 (value.map fun c => if isAssetChar c then c else '_') = ['.', '.']
  · rw [if_pos hbad]
    exact ⟨hfallback, hshort⟩
  · rw [if_neg hbad]
    simp only [not_or] at hbad
    refine ⟨⟨?_, hbad.1, hbad.2.1, hbad.2.2⟩, utf8Len_popTo _ _⟩
    intro c hc
    obtain ⟨d, -, rfl⟩ := List.mem_map.mp (mem_of_mem_popTo hc)
    by_cases hd : isAssetChar d = true
    · rw [if_pos hd]
      exact hd
    · rw [if_neg hd]
      rfl

/-- Asset characters are ASCII, and none has a meaning in a path. -/
theorem isAssetChar_spec {c : Char} (h : isAssetChar c = true) :
    c.utf8Size = 1 ∧ c ≠ '/' ∧ c ≠ '\\' ∧ c ≠ ':' ∧ c ≠ '\x00' := by
  have hrange : (48 ≤ c.toNat ∧ c.toNat ≤ 57) ∨ (97 ≤ c.toNat ∧ c.toNat ≤ 122)
      ∨ (65 ≤ c.toNat ∧ c.toNat ≤ 90) ∨ c.toNat = 46 ∨ c.toNat = 45 ∨ c.toNat = 95 := by
    simp only [isAssetChar, isAsciiAlphanumeric, Bool.or_eq_true, Bool.and_eq_true,
      decide_eq_true_eq, beq_iff_eq, le_iff_toNat] at h
    rcases h with (((((h | h) | h) | rfl) | rfl) | rfl)
    · exact Or.inl h
    · exact Or.inr (Or.inl h)
    · exact Or.inr (Or.inr (Or.inl h))
    all_goals decide
  have hne : ∀ d : Char, d.toNat = 47 ∨ d.toNat = 92 ∨ d.toNat = 58 ∨ d.toNat = 0 → c ≠ d := by
    rintro d hd rfl
    omega
  refine ⟨?_, hne _ (by decide), hne _ (by decide), hne _ (by decide), hne _ (by decide)⟩
  rw [Char.utf8Size_eq_one_iff]
  show c.toNat ≤ 127
  omega

/-! ## §2. The two builders. -/

/-- `Uuid::simple`: the identifier without its dashes. -/
def simple (id : Uuid) : Text := id.text.filter fun c => c != '-'

/-- `{:03}`. -/
def threeDigits (n : Nat) : Text := List.replicate (3 - (showNat n).length) '0' ++ showNat n

/-- `rsplit('/').next()`. -/
def lastPart (path : Text) : Text := (path.splitOn '/').getLastD []

def taskRestoreDir (runId : Uuid) : Text := "backups/tasks/".toList ++ runId.text

def validateRestoreRelativePath (relative : Text) : AppResult Unit := do
  validateConfinedRelativePath relative
  let components := pathComponents relative
  if !(components.length == 3 || components.length == 4)
      || components[0]? != some (.normal "backups".toList)
      || components[1]? != some (.normal "tasks".toList) then
    throw (.security "任务恢复资产只能位于 backups/tasks/<run_uuid>".toList)
  match (components[2]? : Option PathComponent) with
  | some (.normal runId) =>
      if (Uuid.parseStr runId).isNone then
        throw (.security "任务恢复目录必须使用运行 UUID".toList)
      match (components[3]? : Option PathComponent) with
      | none => .ok ()
      | some (.normal fileName) =>
          if fileName.isEmpty || 180 < utf8Len fileName || ".partial".toList.isSuffixOf fileName
              || fileName.contains ':' then
            .error (.security "任务恢复文件名无效".toList)
          else .ok ()
      | some _ => .error (.security "任务恢复文件名无效".toList)
  | _ => .error (.security "任务恢复目录无效".toList)

/-- The `sha2` crate prints a digest as 64 hexadecimal digits in lower case. -/
structure HexDigests (sha256 : Text → Text) : Prop where
  length : ∀ text, (sha256 text).length = 64
  digits : ∀ text, ∀ c ∈ sha256 text, isAsciiDigit c = true ∨ ('a' ≤ c ∧ c ≤ 'f')

variable (sha256 : Text → Text)

def taskRestoreItemRelativePath (runId : Uuid) (ordinal : Nat) (remoteTarget : Text) :
    AppResult Text :=
  if remoteTarget.isEmpty || remoteTarget.contains '\x00' || 1000 ≤ ordinal then
    .error (.validation "恢复项目标或序号无效".toList)
  else do
    let originalName :=
      if lastPart remoteTarget = [] then "remote-state".toList else lastPart remoteTarget
    let relative := "backups/tasks/".toList ++ runId.text ++ ['/'] ++ threeDigits ordinal ++ ['-']
      ++ safeAssetName originalName ++ ['.'] ++ (sha256 remoteTarget).take 12
      ++ ".backup".toList
    validateRestoreRelativePath relative
    .ok relative

/-- `restore_point_relative_path`, with the identifier that `Uuid::new_v4` draws. -/
def restorePointRelativePath (drawn runId nodeId : Uuid) (remotePath : Text) :
    AppResult Text := do
  validateRemotePath remotePath
  if lastPart remotePath = [] then
    throw (.validation "恢复点远程路径必须指向文件".toList)
  let relative := "backups/workflows/".toList ++ runId.text ++ ['/'] ++ nodeId.text ++ ['/']
    ++ safeName "remote-file".toList (lastPart remotePath) ++ ['.']
    ++ (sha256 remotePath).take 12 ++ ['.'] ++ simple drawn ++ ".backup".toList
  validateRestorePointRelativePath relative
  .ok relative

/-- The `CHECK` of `operation_restore_items` on `local_relative_path`. -/
def tableAllows (path : Text) : Bool :=
  decide (1 ≤ utf8Len path) && decide (utf8Len path ≤ 4096) && path.take 1 != ['/']
    && !path.contains '\\' && !path.contains ':' && path != ['.', '.']
    && !"../".toList.isPrefixOf path && !decide ("/../".toList <:+: path)

/-! ## §3. Paths that are joined from safe names. -/

/-- The path with these segments. -/
def join (segments : List Text) : Text := ['/'].intercalate segments

theorem laterComponents_segments {segments : List Text} (h : ∀ s ∈ segments, IsSegment s) :
    laterComponents segments = segments.map .normal := by
  unfold laterComponents
  induction segments with
  | nil => rfl
  | cons s rest ih =>
      have hs := h s List.mem_cons_self
      rw [List.filterMap_cons, if_neg (by simp [hs.nonempty, hs.not_current]),
        if_neg hs.not_parent, ih fun t ht => h t (List.mem_cons_of_mem _ ht)]
      rfl

theorem splitOn_join {segments : List Text} (hne : segments ≠ [])
    (h : ∀ s ∈ segments, IsSegment s) : (join segments).splitOn '/' = segments := by
  refine List.splitOn_intercalate '/' ?_ hne
  intro s hs hslash
  exact (isAssetChar_spec ((h s hs).chars _ hslash)).2.1 rfl

/-- **The components of a joined path are its segments.** -/
theorem pathComponents_join {segments : List Text} (hne : segments ≠ [])
    (h : ∀ s ∈ segments, IsSegment s) :
    pathComponents (join segments) = segments.map .normal := by
  unfold pathComponents
  rw [splitOn_join hne h]
  cases segments with
  | nil => exact absurd rfl hne
  | cons s rest =>
      have hs := h s List.mem_cons_self
      show (if s = [] then _ else if s = ['.'] then _ else laterComponents (s :: rest)) = _
      rw [if_neg hs.nonempty, if_neg hs.not_current, laterComponents_segments h]

/-- The characters of a joined path are those of its segments, and slashes. -/
theorem mem_join {segments : List Text} {c : Char} (h : c ∈ join segments) :
    c = '/' ∨ ∃ s ∈ segments, c ∈ s := by
  unfold join at h
  induction segments with
  | nil => simp at h
  | cons s rest ih =>
      cases rest with
      | nil =>
          rw [List.intercalate_singleton] at h
          exact Or.inr ⟨s, List.mem_cons_self, h⟩
      | cons t rest =>
          rw [List.intercalate_cons_cons, List.mem_append, List.mem_append,
            List.mem_singleton] at h
          rcases h with (hs | hslash) | hrest
          · exact Or.inr ⟨s, List.mem_cons_self, hs⟩
          · exact Or.inl hslash
          · apply (ih hrest).imp_right
            rintro ⟨u, hu, hcu⟩
            exact ⟨u, List.mem_cons_of_mem _ hu, hcu⟩

theorem join_chars {segments : List Text} (h : ∀ s ∈ segments, IsSegment s) {c : Char}
    (hc : c ∈ join segments) : c.utf8Size = 1 ∧ c ≠ '\\' ∧ c ≠ ':' ∧ c ≠ '\x00' := by
  rcases mem_join hc with rfl | ⟨s, hs, hcs⟩
  · decide
  · obtain ⟨hsize, -, hback, hcolon, hnul⟩ := isAssetChar_spec ((h s hs).chars c hcs)
    exact ⟨hsize, hback, hcolon, hnul⟩

/-- An ASCII text has one byte for each character. -/
theorem utf8Len_of_ascii {s : Text} (h : ∀ c ∈ s, c.utf8Size = 1) : utf8Len s = s.length := by
  induction s with
  | nil => rfl
  | cons c s ih =>
      rw [utf8Len_cons, ih fun d hd => h d (List.mem_cons_of_mem _ hd),
        h c List.mem_cons_self, List.length_cons]

theorem utf8Len_segment {s : Text} (h : IsSegment s) : utf8Len s = s.length :=
  utf8Len_of_ascii fun c hc => (isAssetChar_spec (h.chars c hc)).1

/-- The checks of characters pass on a joined path. -/
theorem not_contains_join {segments : List Text} (h : ∀ s ∈ segments, IsSegment s) {c : Char}
    (hc : c = '\\' ∨ c = ':' ∨ c = '\x00') : (join segments).contains c = false := by
  rw [List.contains_eq_mem, decide_eq_false_iff_not]
  intro hmem
  obtain ⟨-, hback, hcolon, hnul⟩ := join_chars h hmem
  rcases hc with rfl | rfl | rfl
  · exact hback rfl
  · exact hcolon rfl
  · exact hnul rfl

theorem segments_safe {segments : List Text} (h : ∀ s ∈ segments, IsSegment s)
    {safe : PathComponent → Bool} (hsafe : ∀ name, safe (.normal name) = !name.contains ':') :
    (segments.map PathComponent.normal).all safe = true := by
  rw [List.all_map, List.all_eq_true]
  intro s hs
  show safe (.normal s) = true
  rw [hsafe, List.contains_eq_mem, Bool.not_eq_true', decide_eq_false_iff_not]
  exact fun hmem => (isAssetChar_spec ((h s hs).chars _ hmem)).2.2.2.1 rfl

theorem join_ne_nil {segments : List Text} (hne : segments ≠ [])
    (h : ∀ s ∈ segments, IsSegment s) : join segments ≠ [] := by
  intro hnil
  have hcomponents := pathComponents_join hne h
  rw [hnil] at hcomponents
  exact hne (List.map_eq_nil_iff.mp hcomponents.symm)

theorem validateConfined_join {segments : List Text} (hne : segments ≠ [])
    (h : ∀ s ∈ segments, IsSegment s) :
    validateConfinedRelativePath (join segments) = .ok () := by
  unfold validateConfinedRelativePath
  dsimp only
  rw [pathComponents_join hne h, not_contains_join h (Or.inr (Or.inr rfl)),
    not_contains_join h (Or.inl rfl), segments_safe h fun _ => rfl,
    List.isEmpty_eq_false_iff.mpr (join_ne_nil hne h)]
  rfl

/-- **The check of the table's repository passes on a joined path.** -/
theorem validateRelative_join {segments : List Text} (hne : segments ≠ [])
    (h : ∀ s ∈ segments, IsSegment s) (hshort : utf8Len (join segments) ≤ 4096) :
    Repositories.OperationRestoreRepository.validateRelativePath (join segments) = .ok () := by
  unfold Repositories.OperationRestoreRepository.validateRelativePath
  dsimp only
  rw [pathComponents_join hne h, not_contains_join h (Or.inr (Or.inr rfl)),
    not_contains_join h (Or.inl rfl), segments_safe h fun _ => rfl,
    List.isEmpty_eq_false_iff.mpr (join_ne_nil hne h), decide_eq_false (by omega)]
  rfl

theorem parent_mem_splitOn (rest : Text) :
    ['.', '.'] ∈ (['.', '.'] ++ '/' :: rest).splitOn '/' := by
  rw [List.splitOn_append_cons_self]
  exact List.mem_append_left _ (by decide)

/-- **The constraint of the table holds of a joined path.** -/
theorem tableAllows_join {segments : List Text} (hne : segments ≠ [])
    (h : ∀ s ∈ segments, IsSegment s) (hshort : utf8Len (join segments) ≤ 4096) :
    tableAllows (join segments) = true := by
  have hparts : ∀ part ∈ (join segments).splitOn '/', IsSegment part := by
    rw [splitOn_join hne h]
    exact h
  have hnil := join_ne_nil hne h
  have hback := not_contains_join h (Or.inl rfl)
  have hcolon := not_contains_join h (Or.inr (Or.inl rfl))
  generalize join segments = path at hparts hnil hback hcolon hshort ⊢
  have hlong : 1 ≤ utf8Len path := by
    cases path with
    | nil => exact absurd rfl hnil
    | cons c rest =>
        have hc := c.utf8Size_pos
        rw [utf8Len_cons]
        omega
  have hslash : path.take 1 ≠ ['/'] := by
    intro htake
    -- in front of a slash at the beginning stands an empty part
    rw [← List.take_append_drop 1 path, htake] at hparts
    refine (hparts [] ?_).nonempty rfl
    show [] ∈ ([] ++ '/' :: path.drop 1).splitOn '/'
    rw [List.splitOn_append_cons_self]
    exact List.mem_append_left _ (by decide)
  have hprefix : "../".toList.isPrefixOf path = false := by
    rw [← Bool.not_eq_true, List.isPrefixOf_iff_prefix]
    rintro ⟨rest, rfl⟩
    exact (hparts _ (parent_mem_splitOn rest)).not_parent rfl
  have hinfix : ¬ "/../".toList <:+: path := by
    rintro ⟨front, back, rfl⟩
    refine (hparts ['.', '.'] ?_).not_parent rfl
    rw [List.append_assoc]
    show ['.', '.'] ∈ (front ++ '/' :: (['.', '.'] ++ '/' :: back)).splitOn '/'
    rw [List.splitOn_append_cons_self, List.mem_append]
    exact Or.inr (parent_mem_splitOn back)
  have hparent : path ≠ ['.', '.'] := by
    rintro rfl
    exact (hparts ['.', '.'] (by decide)).not_parent rfl
  unfold tableAllows
  rw [hback, hcolon, hprefix, decide_eq_true hlong, decide_eq_true hshort,
    decide_eq_false hinfix, bne_iff_ne.mpr hslash, bne_iff_ne.mpr hparent]
  rfl

/-! ## §4. The names of backup files. -/

theorem isAssetChar_of_range {c : Char}
    (h : c = '-' ∨ (48 ≤ c.toNat ∧ c.toNat ≤ 57) ∨ (97 ≤ c.toNat ∧ c.toNat ≤ 102)) :
    isAssetChar c = true := by
  simp only [isAssetChar, isAsciiAlphanumeric, Bool.or_eq_true, Bool.and_eq_true,
    decide_eq_true_eq, beq_iff_eq, le_iff_toNat]
  rcases h with rfl | hdigit | hletter
  · exact Or.inl (Or.inr rfl)
  · exact Or.inl (Or.inl (Or.inl (Or.inl (Or.inl hdigit))))
  · refine Or.inl (Or.inl (Or.inl (Or.inl (Or.inr ⟨hletter.1, ?_⟩))))
    exact le_trans hletter.2 (by decide)

theorem segment_of_chars {name : Text} (hchars : ∀ c ∈ name, isAssetChar c = true)
    (hlong : 3 ≤ name.length) : IsSegment name where
  chars := hchars
  nonempty := by
    rintro rfl
    exact absurd hlong (by decide)
  not_current := by
    rintro rfl
    exact absurd hlong (by decide)
  not_parent := by
    rintro rfl
    exact absurd hlong (by decide)

theorem segment_uuid (id : Uuid) : IsSegment id.text := by
  refine segment_of_chars (fun c hc => isAssetChar_of_range (id.text_chars c hc)) ?_
  rw [id.length_text]
  omega

theorem simple_chars (id : Uuid) : ∀ c ∈ simple id, isAssetChar c = true := fun c hc =>
  isAssetChar_of_range (id.text_chars c (List.mem_of_mem_filter hc))

theorem length_simple (id : Uuid) : (simple id).length ≤ 36 := by
  have hle := List.length_filter_le (fun c => c != '-') id.text
  rw [id.length_text] at hle
  exact hle

theorem threeDigits_chars (n : Nat) : ∀ c ∈ threeDigits n, isAssetChar c = true := by
  intro c hc
  apply isAssetChar_of_range
  rcases List.mem_append.mp hc with hzero | hdigit
  · rw [List.eq_of_mem_replicate hzero]
    decide
  · have hd : c.isDigit = true := Nat.isDigit_of_mem_toDigits (by omega) (by omega) hdigit
    exact Or.inr (Or.inl (Char.isDigit_iff_toNat.mp hd))

theorem length_threeDigits {n : Nat} (h : n < 1000) : (threeDigits n).length = 3 := by
  have hle : (showNat n).length ≤ 3 := (Nat.length_toDigits_le_iff (by omega) (by omega)).mpr h
  unfold threeDigits
  rw [List.length_append, List.length_replicate]
  omega

/-- The padding does not change the number that is read back. -/
theorem threeDigits_inj {m n : Nat} (h : threeDigits m = threeDigits n) : m = n := by
  have hread := congrArg (fun t => Nat.ofDigitChars 10 t 0) h
  simp only [threeDigits, showNat, Nat.ofDigitChars_append, Nat.ofDigitChars_replicate_zero,
    Nat.mul_zero, Nat.ofDigitChars_ten_toDigits] at hread
  exact hread

theorem length_segment_name {fallback : Text} (hfallback : IsSegment fallback)
    (hshort : utf8Len fallback ≤ 96) (value : Text) :
    (safeName fallback value).length ≤ 96 := by
  obtain ⟨hsegment, hle⟩ := safeName_spec hfallback hshort value
  rw [← utf8Len_segment hsegment]
  exact hle

theorem segment_remote_state : IsSegment "remote-state".toList :=
  segment_of_chars (by decide) (by decide)

theorem segment_remote_file : IsSegment "remote-file".toList :=
  segment_of_chars (by decide) (by decide)

/-- The last component of the path of an item. -/
def taskFileName (ordinal : Nat) (remoteTarget : Text) : Text :=
  threeDigits ordinal ++ ['-']
    ++ safeAssetName
      (if lastPart remoteTarget = [] then "remote-state".toList else lastPart remoteTarget)
    ++ ['.'] ++ (sha256 remoteTarget).take 12 ++ ".backup".toList

/-- The last component of the path of a restore point. -/
def pointFileName (drawn : Uuid) (remotePath : Text) : Text :=
  safeName "remote-file".toList (lastPart remotePath) ++ ['.'] ++ (sha256 remotePath).take 12
    ++ ['.'] ++ simple drawn ++ ".backup".toList

variable {sha256}

theorem digest_chars (hsha : HexDigests sha256) (text : Text) :
    ∀ c ∈ (sha256 text).take 12, isAssetChar c = true := by
  intro c hc
  apply isAssetChar_of_range
  have hdigit := hsha.digits text c (List.mem_of_mem_take hc)
  simp only [isAsciiDigit, Bool.and_eq_true, decide_eq_true_eq, le_iff_toNat] at hdigit
  exact Or.inr hdigit

theorem length_digest (hsha : HexDigests sha256) (text : Text) :
    ((sha256 text).take 12).length = 12 := by
  rw [List.length_take, hsha.length]
  rfl

/-- **The file name of an item is a segment of at most 120 bytes.** -/
theorem taskFileName_spec (hsha : HexDigests sha256) {ordinal : Nat} (hordinal : ordinal < 1000)
    (remoteTarget : Text) :
    IsSegment (taskFileName sha256 ordinal remoteTarget)
      ∧ (taskFileName sha256 ordinal remoteTarget).length ≤ 120 := by
  have hname := safeName_spec segment_remote_state (by decide)
    (if lastPart remoteTarget = [] then "remote-state".toList else lastPart remoteTarget)
  have hlength : (taskFileName sha256 ordinal remoteTarget).length = 3 + 1 + (safeAssetName
      (if lastPart remoteTarget = [] then "remote-state".toList else lastPart remoteTarget)).length
      + 1 + 12 + 7 := by
    unfold taskFileName
    simp only [List.length_append, length_threeDigits hordinal, length_digest hsha]
    rfl
  have hshort := length_segment_name segment_remote_state (by decide)
    (if lastPart remoteTarget = [] then "remote-state".toList else lastPart remoteTarget)
  have hle : (taskFileName sha256 ordinal remoteTarget).length ≤ 120 := by
    rw [hlength]
    unfold safeAssetName
    omega
  refine ⟨segment_of_chars ?_ (by omega), hle⟩
  unfold taskFileName
  simp only [List.forall_mem_append]
  exact ⟨⟨⟨⟨⟨threeDigits_chars ordinal, by decide⟩, hname.1.chars⟩, by decide⟩,
    digest_chars hsha remoteTarget⟩, by decide⟩

/-- **The file name of a restore point is a segment of at most 153 bytes.** -/
theorem pointFileName_spec (hsha : HexDigests sha256) (drawn : Uuid) (remotePath : Text) :
    IsSegment (pointFileName sha256 drawn remotePath)
      ∧ (pointFileName sha256 drawn remotePath).length ≤ 153 := by
  have hname := safeName_spec segment_remote_file (by decide) (lastPart remotePath)
  have hshort := length_segment_name segment_remote_file (by decide) (lastPart remotePath)
  have hdrawn := length_simple drawn
  have hlength : (pointFileName sha256 drawn remotePath).length
      = (safeName "remote-file".toList (lastPart remotePath)).length + 1 + 12 + 1
        + (simple drawn).length + 7 := by
    unfold pointFileName
    simp only [List.length_append, length_digest hsha]
    rfl
  have hle : (pointFileName sha256 drawn remotePath).length ≤ 153 := by omega
  refine ⟨segment_of_chars ?_ (by omega), hle⟩
  unfold pointFileName
  simp only [List.forall_mem_append]
  exact ⟨⟨⟨⟨⟨hname.1.chars, by decide⟩, digest_chars hsha remotePath⟩, by decide⟩,
    simple_chars drawn⟩, by decide⟩

/-! ## §5. What the builders return. -/

/-- The path of an item, and that of a restore point. -/
def taskPath (runId : Uuid) (fileName : Text) : Text :=
  join ["backups".toList, "tasks".toList, runId.text, fileName]

def pointPath (runId nodeId : Uuid) (fileName : Text) : Text :=
  join ["backups".toList, "workflows".toList, runId.text, nodeId.text, fileName]

theorem join_four (a b c d : Text) :
    join [a, b, c, d] = a ++ ['/'] ++ b ++ ['/'] ++ c ++ ['/'] ++ d := by
  simp [join]

theorem join_five (a b c d e : Text) :
    join [a, b, c, d, e] = a ++ ['/'] ++ b ++ ['/'] ++ c ++ ['/'] ++ d ++ ['/'] ++ e := by
  simp [join]

theorem taskPath_segments (runId : Uuid) {name : Text} (hname : IsSegment name) :
    ∀ s ∈ ["backups".toList, "tasks".toList, runId.text, name], IsSegment s := by
  have hbackups : IsSegment "backups".toList := segment_of_chars (by decide) (by decide)
  have htasks : IsSegment "tasks".toList := segment_of_chars (by decide) (by decide)
  simp only [List.forall_mem_cons]
  exact ⟨hbackups, htasks, segment_uuid runId, hname, fun _ h => absurd h List.not_mem_nil⟩

theorem pointPath_segments (runId nodeId : Uuid) {name : Text} (hname : IsSegment name) :
    ∀ s ∈ ["backups".toList, "workflows".toList, runId.text, nodeId.text, name],
      IsSegment s := by
  have hbackups : IsSegment "backups".toList := segment_of_chars (by decide) (by decide)
  have hworkflows : IsSegment "workflows".toList := segment_of_chars (by decide) (by decide)
  simp only [List.forall_mem_cons]
  exact ⟨hbackups, hworkflows, segment_uuid runId, segment_uuid nodeId, hname,
    fun _ h => absurd h List.not_mem_nil⟩

theorem pathComponents_task (runId : Uuid) {name : Text} (hname : IsSegment name) :
    pathComponents (taskPath runId name)
      = [.normal "backups".toList, .normal "tasks".toList, .normal runId.text, .normal name] :=
  pathComponents_join (List.cons_ne_nil _ _) (taskPath_segments runId hname)

theorem pathComponents_point (runId nodeId : Uuid) {name : Text} (hname : IsSegment name) :
    pathComponents (pointPath runId nodeId name)
      = [.normal "backups".toList, .normal "workflows".toList, .normal runId.text,
        .normal nodeId.text, .normal name] :=
  pathComponents_join (List.cons_ne_nil _ _) (pointPath_segments runId nodeId hname)

theorem colon_not_segment {name : Text} (h : IsSegment name) : name.contains ':' = false := by
  rw [List.contains_eq_mem, decide_eq_false_iff_not]
  exact fun hmem => (isAssetChar_spec (h.chars _ hmem)).2.2.2.1 rfl

/-- The builder's own check passes. -/
theorem validateRestore_task (runId : Uuid) {name : Text} (hname : IsSegment name)
    (hshort : name.length ≤ 180) (hdone : ".partial".toList.isSuffixOf name = false) :
    validateRestoreRelativePath (taskPath runId name) = .ok () := by
  have hconfined : validateConfinedRelativePath (taskPath runId name) = .ok () :=
    validateConfined_join (List.cons_ne_nil _ _) (taskPath_segments runId hname)
  have hlong : ¬ 180 < utf8Len name := by
    rw [utf8Len_segment hname]
    omega
  unfold validateRestoreRelativePath
  rw [hconfined, pathComponents_task runId hname]
  show (if (Uuid.parseStr runId.text).isNone = true then _ else _) = _
  rw [Uuid.parseStr_text, if_neg (by simp)]
  show (if (name.isEmpty || decide (180 < utf8Len name) || ".partial".toList.isSuffixOf name
    || name.contains ':') = true then _ else _) = _
  rw [hdone, colon_not_segment hname, decide_eq_false hlong,
    List.isEmpty_eq_false_iff.mpr hname.nonempty]
  rfl

theorem validateRestore_point (runId nodeId : Uuid) {name : Text} (hname : IsSegment name)
    (hshort : name.length ≤ 160) :
    validateRestorePointRelativePath (pointPath runId nodeId name) = .ok () := by
  have hconfined : validateConfinedRelativePath (pointPath runId nodeId name) = .ok () :=
    validateConfined_join (List.cons_ne_nil _ _) (pointPath_segments runId nodeId hname)
  have hlong : ¬ 160 < utf8Len name := by
    rw [utf8Len_segment hname]
    omega
  unfold validateRestorePointRelativePath
  rw [hconfined, pathComponents_point runId nodeId hname]
  dsimp only [bind, Except.bind]
  rw [if_neg (by simp), Uuid.parseStr_text, Uuid.parseStr_text, if_neg (by simp),
    if_neg (by simp), colon_not_segment hname, decide_eq_false hlong]
  rfl

/-- A name that ends in `.backup` is not one of an unfinished file. -/
theorem not_partial (front : Text) :
    ".partial".toList.isSuffixOf (front ++ ".backup".toList) = false := by
  rw [← Bool.not_eq_true, List.isSuffixOf_iff_suffix]
  rintro ⟨rest, hrest⟩
  have hlast := congrArg List.getLast? hrest
  simp at hlast

theorem taskFileName_done (ordinal : Nat) (remoteTarget : Text) :
    ".partial".toList.isSuffixOf (taskFileName sha256 ordinal remoteTarget) = false :=
  not_partial _

/-- **What `task_restore_item_relative_path` returns.** -/
theorem taskRestoreItem_ok_iff (hsha : HexDigests sha256) (runId : Uuid) (ordinal : Nat)
    (remoteTarget path : Text) :
    taskRestoreItemRelativePath sha256 runId ordinal remoteTarget = .ok path
      ↔ (remoteTarget ≠ [] ∧ '\x00' ∉ remoteTarget ∧ ordinal < 1000)
        ∧ path = taskPath runId (taskFileName sha256 ordinal remoteTarget) := by
  have hbuilt : "backups/tasks/".toList ++ runId.text ++ ['/'] ++ threeDigits ordinal ++ ['-']
      ++ safeAssetName
        (if lastPart remoteTarget = [] then "remote-state".toList else lastPart remoteTarget)
      ++ ['.'] ++ (sha256 remoteTarget).take 12 ++ ".backup".toList
      = taskPath runId (taskFileName sha256 ordinal remoteTarget) := by
    have hdir : "backups/tasks/".toList = "backups".toList ++ ['/'] ++ "tasks".toList ++ ['/'] :=
      rfl
    unfold taskPath taskFileName
    rw [join_four, hdir]
    simp only [List.append_assoc]
  unfold taskRestoreItemRelativePath
  by_cases hbad : (remoteTarget.isEmpty || remoteTarget.contains '\x00'
      || decide (1000 ≤ ordinal)) = true
  · rw [if_pos hbad]
    simp only [Bool.or_eq_true, List.isEmpty_iff, List.contains_eq_mem, decide_eq_true_eq] at hbad
    constructor
    · intro h
      exact absurd h (by simp)
    · rintro ⟨⟨hne, hnul, hordinal⟩, -⟩
      rcases hbad with (hempty | hmem) | hlarge
      · exact absurd hempty hne
      · exact absurd hmem hnul
      · omega
  · rw [if_neg hbad]
    simp only [Bool.or_eq_true, List.isEmpty_iff, List.contains_eq_mem, decide_eq_true_eq,
      not_or, Nat.not_le] at hbad
    obtain ⟨⟨hne, hnul⟩, hordinal⟩ := hbad
    obtain ⟨hsegment, hshort⟩ := taskFileName_spec hsha hordinal remoteTarget
    have hchecked := validateRestore_task runId hsegment (by omega)
      (taskFileName_done ordinal remoteTarget)
    dsimp only
    rw [hbuilt, hchecked]
    constructor
    · intro h
      exact ⟨⟨hne, hnul, hordinal⟩, (Except.ok.inj h).symm⟩
    · rintro ⟨-, rfl⟩
      rfl

/-- **What `restore_point_relative_path` returns.** -/
theorem restorePoint_ok_iff (hsha : HexDigests sha256) (drawn runId nodeId : Uuid)
    (remotePath path : Text) :
    restorePointRelativePath sha256 drawn runId nodeId remotePath = .ok path
      ↔ (validateRemotePath remotePath = .ok () ∧ lastPart remotePath ≠ [])
        ∧ path = pointPath runId nodeId (pointFileName sha256 drawn remotePath) := by
  have hbuilt : "backups/workflows/".toList ++ runId.text ++ ['/'] ++ nodeId.text ++ ['/']
      ++ safeName "remote-file".toList (lastPart remotePath) ++ ['.']
      ++ (sha256 remotePath).take 12 ++ ['.'] ++ simple drawn ++ ".backup".toList
      = pointPath runId nodeId (pointFileName sha256 drawn remotePath) := by
    have hdir : "backups/workflows/".toList
        = "backups".toList ++ ['/'] ++ "workflows".toList ++ ['/'] := rfl
    unfold pointPath pointFileName
    rw [join_five, hdir]
    simp only [List.append_assoc]
  obtain ⟨hsegment, hshort⟩ := pointFileName_spec hsha drawn remotePath
  have hchecked := validateRestore_point runId nodeId hsegment (by omega)
  unfold restorePointRelativePath
  cases hremote : validateRemotePath remotePath with
  | error e => simp [bind, Except.bind]
  | ok _ =>
      by_cases hlast : lastPart remotePath = []
      · simp [hlast, bind, Except.bind, throw, throwThe, MonadExceptOf.throw]
      · dsimp only [bind, Except.bind]
        rw [if_neg hlast, hbuilt, hchecked]
        constructor
        · intro h
          exact ⟨⟨rfl, hlast⟩, (Except.ok.inj h).symm⟩
        · rintro ⟨-, rfl⟩
          rfl

/-! ## §6. Where a backup lies. -/

/-- The lexical normal form of a relative path, if it does not leave its root; the
names passed so far come last first. -/
def normalizeFrom : List Text → List PathComponent → Option (List Text)
  | names, [] => some names.reverse
  | _, .rootDir :: _ => none
  | names, .curDir :: rest => normalizeFrom names rest
  | [], .parentDir :: _ => none
  | _ :: names, .parentDir :: rest => normalizeFrom names rest
  | names, .normal name :: rest => normalizeFrom (name :: names) rest

/-- The path is one of a file below the directory. -/
def StaysBelow (directory path : Text) : Prop :=
  ∃ rest, rest ≠ [] ∧ normalizeFrom [] (pathComponents path) = some (directory :: rest)

/-- What holds of the path of every backup; `cap` bounds the file name. -/
structure Confined (cap : Nat) (path : Text) : Prop where
  below : StaysBelow "backups".toList path
  components : ∀ name, .normal name ∈ pathComponents path → utf8Len name ≤ cap
  total : utf8Len path ≤ 4096
  checked : Repositories.OperationRestoreRepository.validateRelativePath path = .ok ()
  allowed : tableAllows path = true

theorem utf8Len_join {segments : List Text} (h : ∀ s ∈ segments, IsSegment s) :
    utf8Len (join segments) = (join segments).length :=
  utf8Len_of_ascii fun _ hc => (join_chars h hc).1

theorem normalizeFrom_segments (names segments : List Text) :
    normalizeFrom names (segments.map .normal) = some (names.reverse ++ segments) := by
  induction segments generalizing names with
  | nil => rw [List.append_nil]; rfl
  | cons s rest ih =>
      show normalizeFrom (s :: names) (rest.map .normal) = _
      rw [ih, List.reverse_cons, List.append_assoc]
      rfl

/-- **A joined path below `backups` is confined.** -/
theorem confined_join {cap : Nat} {rest : List Text} (hne : rest ≠ [])
    (h : ∀ s ∈ "backups".toList :: rest, IsSegment s)
    (hcap : ∀ s ∈ "backups".toList :: rest, s.length ≤ cap)
    (htotal : (join ("backups".toList :: rest)).length ≤ 4096) :
    Confined cap (join ("backups".toList :: rest)) := by
  have hcomponents := pathComponents_join (List.cons_ne_nil _ _) h
  have hbytes : utf8Len (join ("backups".toList :: rest)) ≤ 4096 := by
    rw [utf8Len_join h]
    exact htotal
  refine ⟨⟨rest, hne, ?_⟩, ?_, hbytes, validateRelative_join (List.cons_ne_nil _ _) h hbytes,
    tableAllows_join (List.cons_ne_nil _ _) h hbytes⟩
  · rw [hcomponents, normalizeFrom_segments]
    rfl
  · intro name hname
    rw [hcomponents, List.mem_map] at hname
    obtain ⟨s, hs, heq⟩ := hname
    rw [← PathComponent.normal.inj heq, utf8Len_segment (h s hs)]
    exact hcap s hs

theorem confined_task (runId : Uuid) {name : Text} (hname : IsSegment name)
    (hshort : name.length ≤ 180) : Confined 180 (taskPath runId name) := by
  refine confined_join (List.cons_ne_nil _ _) (taskPath_segments runId hname) ?_ ?_
  · simp only [List.forall_mem_cons]
    refine ⟨by decide, by decide, ?_, hshort, fun _ h => absurd h List.not_mem_nil⟩
    rw [runId.length_text]
    omega
  · rw [join_four]
    simp only [List.length_append, runId.length_text]
    show 7 + 1 + 5 + 1 + 36 + 1 + name.length ≤ 4096
    omega

theorem confined_point (runId nodeId : Uuid) {name : Text} (hname : IsSegment name)
    (hshort : name.length ≤ 160) : Confined 160 (pointPath runId nodeId name) := by
  refine confined_join (List.cons_ne_nil _ _) (pointPath_segments runId nodeId hname) ?_ ?_
  · simp only [List.forall_mem_cons]
    refine ⟨by decide, by decide, ?_, ?_, hshort, fun _ h => absurd h List.not_mem_nil⟩
    · rw [runId.length_text]
      omega
    · rw [nodeId.length_text]
      omega
  · rw [join_five]
    simp only [List.length_append, runId.length_text, nodeId.length_text]
    show 7 + 1 + 9 + 1 + 36 + 1 + 36 + 1 + name.length ≤ 4096
    omega

/-- The path of an item lies inside the directory of its run. -/
theorem requireDescendant_task (runId : Uuid) {name : Text} (hname : IsSegment name) :
    requireDescendant (taskRestoreDir runId) (taskPath runId name) = .ok () := by
  have hdir : taskRestoreDir runId = join ["backups".toList, "tasks".toList, runId.text] := by
    have hjoin : join ["backups".toList, "tasks".toList, runId.text]
        = "backups".toList ++ ['/'] ++ "tasks".toList ++ ['/'] ++ runId.text := by
      simp only [join, List.intercalate_cons_cons, List.intercalate_singleton, List.append_assoc]
    rw [hjoin]
    rfl
  have hsegments : ∀ s ∈ ["backups".toList, "tasks".toList, runId.text], IsSegment s :=
    fun s hs => taskPath_segments runId hname s (List.mem_append_left [name] hs)
  have hparent := pathComponents_join (List.cons_ne_nil _ _) hsegments
  rw [← hdir] at hparent
  unfold requireDescendant
  rw [hparent, pathComponents_task runId hname]
  refine if_pos ⟨⟨[.normal name], rfl⟩, ?_⟩
  simp

/-! ## §7. Two backups never share a path. -/

theorem uuid_eq {id id' : Uuid} (h : id.text = id'.text) : id = id' := by
  cases id
  cases id'
  cases h
  rfl

theorem taskPath_inj {runId runId' : Uuid} {name name' : Text} (hname : IsSegment name)
    (hname' : IsSegment name') (h : taskPath runId name = taskPath runId' name') :
    runId = runId' ∧ name = name' := by
  have hcomponents := congrArg pathComponents h
  rw [pathComponents_task runId hname, pathComponents_task runId' hname'] at hcomponents
  simp only [List.cons.injEq, PathComponent.normal.injEq, true_and, and_true] at hcomponents
  exact ⟨uuid_eq hcomponents.1, hcomponents.2⟩

theorem pointPath_inj {runId runId' nodeId nodeId' : Uuid} {name name' : Text}
    (hname : IsSegment name) (hname' : IsSegment name')
    (h : pointPath runId nodeId name = pointPath runId' nodeId' name') :
    runId = runId' ∧ nodeId = nodeId' ∧ name = name' := by
  have hcomponents := congrArg pathComponents h
  rw [pathComponents_point runId nodeId hname,
    pathComponents_point runId' nodeId' hname'] at hcomponents
  simp only [List.cons.injEq, PathComponent.normal.injEq, true_and, and_true] at hcomponents
  exact ⟨uuid_eq hcomponents.1, uuid_eq hcomponents.2.1, hcomponents.2.2⟩

/-- The ordinal is read back from the first three digits. -/
theorem ordinal_of_fileName {ordinal ordinal' : Nat} (hlt : ordinal < 1000)
    (hlt' : ordinal' < 1000) {target target' : Text}
    (h : taskFileName sha256 ordinal target = taskFileName sha256 ordinal' target') :
    ordinal = ordinal' := by
  apply threeDigits_inj
  have htake := congrArg (List.take 3) h
  unfold taskFileName at htake
  simp only [List.append_assoc] at htake
  rw [List.take_left' (length_threeDigits hlt), List.take_left' (length_threeDigits hlt')] at htake
  exact htake

/-- Two texts with dashes at the same places agree when their other characters do. -/
theorem eq_of_dashes {s t : Text} (hdashes : List.Forall₂ (fun a b => a = '-' ↔ b = '-') s t)
    (h : (s.filter fun c => c != '-') = t.filter fun c => c != '-') : s = t := by
  induction hdashes with
  | nil => rfl
  | @cons a b s t hab _ ih =>
      by_cases ha : a = '-'
      · have hb := hab.mp ha
        rw [ha, hb] at h ⊢
        rw [ih (by simpa using h)]
      · have hb : b ≠ '-' := fun hb => ha (hab.mpr hb)
        rw [List.filter_cons_of_pos (by simpa using ha),
          List.filter_cons_of_pos (by simpa using hb), List.cons.injEq] at h
        rw [h.1, ih h.2]

theorem length_filter_of_dashes {s t : Text}
    (hdashes : List.Forall₂ (fun a b => a = '-' ↔ b = '-') s t) :
    (s.filter fun c => c != '-').length = (t.filter fun c => c != '-').length := by
  induction hdashes with
  | nil => rfl
  | @cons a b s t hab _ ih =>
      by_cases ha : a = '-'
      · rw [ha, hab.mp ha]
        simpa using ih
      · have hb : b ≠ '-' := fun hb => ha (hab.mpr hb)
        rw [List.filter_cons_of_pos (by simpa using ha),
          List.filter_cons_of_pos (by simpa using hb), List.length_cons, List.length_cons, ih]

/-- The dashes of an identifier stand at fixed places. -/
theorem dash_iff (id : Uuid) (i : Nat) (h : i < id.text.length) :
    id.text[i] = '-' ↔ i ∈ [8, 13, 18, 23] := by
  have hplaces := id.hyphenated
  unfold isHyphenated at hplaces
  simp only [Bool.and_eq_true, List.all_eq_true] at hplaces
  have hi := hplaces.2 (id.text[i], i) (List.mem_zipIdx_iff_getElem?.mpr (by simp [h]))
  rw [beq_iff_eq, Bool.eq_iff_iff, beq_iff_eq, List.contains_iff_mem] at hi
  exact hi

theorem same_dashes (id id' : Uuid) :
    List.Forall₂ (fun a b => a = '-' ↔ b = '-') id.text id'.text := by
  rw [List.forall₂_iff_get]
  refine ⟨by rw [id.length_text, id'.length_text], ?_⟩
  intro i h h'
  exact (dash_iff id i h).trans (dash_iff id' i h').symm

/-- The drawn identifier is read back from the end of the name. -/
theorem drawn_of_fileName {drawn drawn' : Uuid} {remotePath remotePath' : Text}
    (h : pointFileName sha256 drawn remotePath = pointFileName sha256 drawn' remotePath') :
    drawn = drawn' := by
  have hbackup := List.append_inj_left' h rfl
  have hsimple : simple drawn = simple drawn' :=
    List.append_inj_right' hbackup (length_filter_of_dashes (same_dashes drawn drawn'))
  exact uuid_eq (eq_of_dashes (same_dashes drawn drawn') hsimple)

/-! ## §8. The targets of a capture. -/

/-- A template that does not begin with a placeholder. -/
def opensPlainly (template : Text) : Bool := template.head?.any fun c => c != '{'

/-- Every plan of the catalogue is short and its templates begin with a character of their own. -/
theorem plans_open : (Catalog.recoverable.all fun definition =>
    definition.implementations.all fun implementation =>
      implementation.backupPlan.all fun plan =>
        decide (plan.items.length < 1000)
          && plan.items.all fun item => opensPlainly item.targetTemplate) = true := by
  decide +kernel

/-- A target that `capture_connected` passes with its ordinal: it is rendered from the item
of a plan of the catalogue, with accepted parameters. -/
structure TaskTarget [UuidCrate] (ordinal : Nat) (target : Text) : Prop where
  rendered : ∃ definition ∈ Catalog.recoverable, ∃ implementation ∈ definition.implementations,
    ∃ plan item input parameters, implementation.backupPlan = some plan
      ∧ plan.items[ordinal]? = some item ∧ validateParameters definition input = .ok parameters
      ∧ renderBackupTarget item.targetTemplate implementation.id parameters = .ok target

/-- A remote path that `capture` gets from an accepted upload with a restore point. -/
def UploadTarget [UuidCrate] (catalog : List TaskDefinition) (pathIsAbsolute : Text → Bool)
    (remotePath : Text) : Prop :=
  ∃ localPath overwrite, validateConfig catalog pathIsAbsolute
    (.upload localPath remotePath overwrite true : Domain.WorkflowNodeConfig Uuid) = .ok ()

/-- A replacement of placeholders keeps a first character that is no brace. -/
theorem head_foldlM {es : List (Text × ValidatedParameter)} {c : Char} (hc : c ≠ '{')
    {template r : Text} (hhead : template.head? = some c)
    (h : es.foldlM substituteTarget template = .ok r) : r.head? = some c := by
  induction es generalizing template with
  | nil =>
      rw [← Except.ok.inj h]
      exact hhead
  | cons e es ih =>
      rw [List.foldlM_cons] at h
      obtain ⟨next, hnext, hrest⟩ := bind_eq_ok.mp h
      refine ih ?_ hrest
      unfold substituteTarget at hnext
      cases hv : singleText e.2.value with
      | none =>
          rw [hv] at hnext
          exact absurd hnext (by simp)
      | some value =>
          rw [hv] at hnext
          rw [← Except.ok.inj hnext]
          obtain ⟨rest, rfl⟩ := List.head?_eq_some_iff.mp hhead
          rw [Lib.Text.replace_cons_of_ne]
          · rfl
          · rintro ⟨after, hafter⟩
            exact hc (List.cons.inj hafter).1.symm

/-- **Every target that the service passes is one that the builder accepts.** -/
theorem TaskTarget.accepted [UuidCrate] {ordinal : Nat} {target : Text}
    (h : TaskTarget ordinal target) : target ≠ [] ∧ '\x00' ∉ target ∧ ordinal < 1000 := by
  obtain ⟨definition, hdefinition, implementation, himplementation, plan, item, input, parameters,
    hplan, hitem, -, hrender⟩ := h.rendered
  have hopen := List.all_eq_true.mp (List.all_eq_true.mp plans_open definition hdefinition)
    implementation himplementation
  rw [hplan, Option.all_some, Bool.and_eq_true, decide_eq_true_eq] at hopen
  obtain ⟨hordinal, -⟩ := List.getElem?_eq_some_iff.mp hitem
  have htemplate := List.all_eq_true.mp hopen.2 item (List.mem_of_getElem? hitem)
  obtain ⟨c, hc, hplain⟩ : ∃ c, item.targetTemplate.head? = some c ∧ c ≠ '{' := by
    unfold opensPlainly at htemplate
    cases hhead : item.targetTemplate.head? with
    | none =>
        rw [hhead] at htemplate
        exact absurd htemplate (by simp)
    | some c =>
        rw [hhead, Option.any_some, bne_iff_ne] at htemplate
        exact ⟨c, rfl, htemplate⟩
  unfold renderBackupTarget at hrender
  split at hrender
  next => exact absurd hrender (by simp)
  next =>
    obtain ⟨out, hloop, hrender⟩ := bind_eq_ok.mp hrender
    split at hrender
    next => exact absurd hrender (by simp)
    next hclean =>
      rw [← Except.ok.inj hrender]
      simp only [Bool.or_eq_true, not_or, List.contains_eq_mem, decide_eq_true_eq] at hclean
      have hhead := head_foldlM hplain hc hloop
      refine ⟨?_, hclean.2, by omega⟩
      rintro rfl
      exact absurd hhead (by simp)

theorem UploadTarget.accepted [UuidCrate] {catalog : List TaskDefinition}
    {pathIsAbsolute : Text → Bool} {remotePath : Text}
    (h : UploadTarget catalog pathIsAbsolute remotePath) :
    validateRemotePath remotePath = .ok () := by
  obtain ⟨localPath, overwrite, hconfig⟩ := h
  unfold validateConfig at hconfig
  dsimp only at hconfig
  split at hconfig
  next => exact absurd hconfig (by simp)
  next =>
    split at hconfig
    next => exact absurd hconfig (by simp)
    next => exact hconfig

/-! ## §9. Backups of every capture. -/

theorem taskPath_done (runId : Uuid) (ordinal : Nat) (remoteTarget : Text) :
    ".partial".toList.isSuffixOf (taskPath runId (taskFileName sha256 ordinal remoteTarget))
      = false := by
  unfold taskPath taskFileName
  rw [join_four]
  simp only [← List.append_assoc]
  exact not_partial _

/-- The path of an item, with every check that it passes on its way into the table. -/
theorem taskRestoreItem_spec (hsha : HexDigests sha256) (runId : Uuid) {ordinal : Nat}
    {target : Text} (haccepted : target ≠ [] ∧ '\x00' ∉ target ∧ ordinal < 1000) :
    ∃ path, taskRestoreItemRelativePath sha256 runId ordinal target = .ok path
      ∧ Confined 180 path ∧ requireDescendant (taskRestoreDir runId) path = .ok ()
      ∧ ".partial".toList.isSuffixOf path = false := by
  obtain ⟨hsegment, hshort⟩ := taskFileName_spec hsha haccepted.2.2 target
  refine ⟨taskPath runId (taskFileName sha256 ordinal target),
    (taskRestoreItem_ok_iff hsha _ _ _ _).mpr ⟨haccepted, rfl⟩, ?_, ?_, ?_⟩
  · exact confined_task runId hsegment (by omega)
  · exact requireDescendant_task runId hsegment
  · exact taskPath_done runId ordinal target

theorem restorePoint_spec (hsha : HexDigests sha256) (drawn runId nodeId : Uuid)
    {remotePath : Text} (haccepted : validateRemotePath remotePath = .ok ())
    (hfile : lastPart remotePath ≠ []) :
    ∃ path, restorePointRelativePath sha256 drawn runId nodeId remotePath = .ok path
      ∧ Confined 160 path ∧ validateRestorePointRelativePath path = .ok () := by
  obtain ⟨hsegment, hshort⟩ := pointFileName_spec hsha drawn remotePath
  refine ⟨pointPath runId nodeId (pointFileName sha256 drawn remotePath),
    (restorePoint_ok_iff hsha _ _ _ _ _).mpr ⟨⟨haccepted, hfile⟩, rfl⟩, ?_, ?_⟩
  · exact confined_point runId nodeId hsegment (by omega)
  · exact validateRestore_point runId nodeId hsegment (by omega)

/-- Items of different runs or ordinals have different paths. -/
theorem taskRestoreItem_inj (hsha : HexDigests sha256) {runId runId' : Uuid}
    {ordinal ordinal' : Nat} {target target' path : Text}
    (h : taskRestoreItemRelativePath sha256 runId ordinal target = .ok path)
    (h' : taskRestoreItemRelativePath sha256 runId' ordinal' target' = .ok path) :
    runId = runId' ∧ ordinal = ordinal' := by
  obtain ⟨⟨-, -, hlt⟩, hpath⟩ := (taskRestoreItem_ok_iff hsha _ _ _ _).mp h
  obtain ⟨⟨-, -, hlt'⟩, hpath'⟩ := (taskRestoreItem_ok_iff hsha _ _ _ _).mp h'
  obtain ⟨hrun, hname⟩ := taskPath_inj (taskFileName_spec hsha hlt target).1
    (taskFileName_spec hsha hlt' target').1 (hpath.symm.trans hpath')
  exact ⟨hrun, ordinal_of_fileName hlt hlt' hname⟩

/-- Restore points with different identifiers have different paths. -/
theorem restorePoint_inj (hsha : HexDigests sha256)
    {drawn drawn' runId runId' nodeId nodeId' : Uuid} {remotePath remotePath' path : Text}
    (h : restorePointRelativePath sha256 drawn runId nodeId remotePath = .ok path)
    (h' : restorePointRelativePath sha256 drawn' runId' nodeId' remotePath' = .ok path) :
    drawn = drawn' ∧ runId = runId' ∧ nodeId = nodeId' := by
  obtain ⟨-, hpath⟩ := (restorePoint_ok_iff hsha _ _ _ _ _).mp h
  obtain ⟨-, hpath'⟩ := (restorePoint_ok_iff hsha _ _ _ _ _).mp h'
  obtain ⟨hrun, hnode, hname⟩ := pointPath_inj (pointFileName_spec hsha drawn remotePath).1
    (pointFileName_spec hsha drawn' remotePath').1 (hpath.symm.trans hpath')
  exact ⟨drawn_of_fileName hname, hrun, hnode⟩

/-- **Backup paths are confined and distinct**, whatever a capture passes; an upload to a
path that ends in a slash gets no restore point. -/
theorem backup_paths_confined_distinct [UuidCrate] (sha256 : Text → Text)
    (hsha : HexDigests sha256) (catalog : List TaskDefinition) (pathIsAbsolute : Text → Bool) :
    (∀ runId ordinal target, TaskTarget ordinal target →
        ∃ path, taskRestoreItemRelativePath sha256 runId ordinal target = .ok path
          ∧ Confined 180 path ∧ requireDescendant (taskRestoreDir runId) path = .ok ()
          ∧ ".partial".toList.isSuffixOf path = false)
      ∧ (∀ drawn runId nodeId remotePath, UploadTarget catalog pathIsAbsolute remotePath →
        lastPart remotePath ≠ [] →
          ∃ path, restorePointRelativePath sha256 drawn runId nodeId remotePath = .ok path
            ∧ Confined 160 path ∧ validateRestorePointRelativePath path = .ok ())
      ∧ (∀ drawn runId nodeId remotePath, UploadTarget catalog pathIsAbsolute remotePath →
        lastPart remotePath = [] →
          restorePointRelativePath sha256 drawn runId nodeId remotePath
            = .error (.validation "恢复点远程路径必须指向文件".toList))
      ∧ (∀ runId runId' ordinal ordinal' target target' path,
        taskRestoreItemRelativePath sha256 runId ordinal target = .ok path →
          taskRestoreItemRelativePath sha256 runId' ordinal' target' = .ok path →
            runId = runId' ∧ ordinal = ordinal')
      ∧ ∀ drawn drawn' runId runId' nodeId nodeId' remotePath remotePath' path,
        restorePointRelativePath sha256 drawn runId nodeId remotePath = .ok path →
          restorePointRelativePath sha256 drawn' runId' nodeId' remotePath' = .ok path →
            drawn = drawn' ∧ runId = runId' ∧ nodeId = nodeId' := by
  refine ⟨?_, ?_, ?_, ?_, ?_⟩
  · intro runId ordinal target htarget
    exact taskRestoreItem_spec hsha runId htarget.accepted
  · intro drawn runId nodeId remotePath hupload hfile
    exact restorePoint_spec hsha drawn runId nodeId hupload.accepted hfile
  · intro drawn runId nodeId remotePath hupload hfile
    unfold restorePointRelativePath
    rw [hupload.accepted, if_pos hfile]
    rfl
  · intro runId runId' ordinal ordinal' target target' path h h'
    exact taskRestoreItem_inj hsha h h'
  · intro drawn drawn' runId runId' nodeId nodeId' remotePath remotePath' path h h'
    exact restorePoint_inj hsha h h'

def zeroDigest (_ : Text) : Text := List.replicate 64 '0'

theorem hexDigests_zero : HexDigests zeroDigest where
  length _ := List.length_replicate
  digits _ _ hc := by
    rw [List.eq_of_mem_replicate hc]
    decide

def sampleUuid : Uuid := ⟨"00000000-0000-4000-8000-000000000001".toList, Domain.hyphenated_one⟩

/-- The backups of a permission change and of an upload. -/
theorem backup_paths_of_app :
    (∃ path, taskRestoreItemRelativePath zeroDigest sampleUuid 0
        "test ! -L /srv/app && stat -Lc 'path=%n\\nuid=%u\\ngid=%g\\nmode=%a' -- /srv/app".toList
          = .ok path ∧ Confined 180 path
        ∧ requireDescendant (taskRestoreDir sampleUuid) path = .ok ()
        ∧ ".partial".toList.isSuffixOf path = false)
      ∧ ∃ path, restorePointRelativePath zeroDigest sampleUuid sampleUuid sampleUuid
          "/srv/app.conf".toList = .ok path ∧ Confined 160 path
        ∧ validateRestorePointRelativePath path = .ok () := by
  let _ : UuidCrate := hyphenatedUuid
  obtain ⟨htask, hpoint, -⟩ := backup_paths_confined_distinct zeroDigest hexDigests_zero []
    fun path => ['/'].isPrefixOf path
  constructor
  · apply htask
    have haccepted := eq_ok_acceptedOrEmpty (show (validateParameters Catalog.filePermissions
      (permissionInput "/srv/app".toList)).toBool = true by decide)
    exact ⟨_, filePermissions_mem, posixStat, List.head_mem _, metadataPlan, metadataBefore, _, _,
      rfl, rfl, haccepted, by decide +kernel⟩
  · exact hpoint sampleUuid sampleUuid sampleUuid _ ⟨"/tmp/app.conf".toList, true, by decide⟩
      (by decide)

/-- An accepted upload to a directory, which gets no backup path. -/
theorem directory_has_no_backup_path :
    @UploadTarget hyphenatedUuid [] (fun path => ['/'].isPrefixOf path) "/srv/app/".toList
      ∧ restorePointRelativePath zeroDigest sampleUuid sampleUuid sampleUuid "/srv/app/".toList
        = .error (.validation "恢复点远程路径必须指向文件".toList) := by
  let _ : UuidCrate := hyphenatedUuid
  exact ⟨⟨"/tmp/app".toList, true, by decide⟩, by decide⟩

end QingzhouSSH.Core.RestorePaths
