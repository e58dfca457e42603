/-
  QingzhouSSH.Core.Sftp.Browser — the arithmetic of remote paths.

  A directory that is browsed is an absolute path with forward slashes: below `/`, or below
  the root of a drive such as `C:/`.  A name joined to it gives the path of an entry, and
  the parent of that path is what the listing of the entry shows.

  Main results:
    * `remoteChildPath_eq` — the path of an entry is its name behind a slash;
    * `remoteParent_slash` — the parent, from what stands before the last slash;
    * `childPath_accepted` — the path of an entry is accepted;
    * `parent_of_child_iff` — when the parent of an entry is its directory.
-/
import QingzhouSSH.Core.Workflows.Validation

namespace QingzhouSSH.Core.Sftp

open String (utf8Len)
open QingzhouSSH.Core.Tasks
open QingzhouSSH.Core.Workflows
open QingzhouSSH.Domain
open QingzhouSSH.Lib

/-! ## §1. Paths. -/

/-- A drive and its root, such as `C:/`. -/
def windowsDriveRoot : Text → Bool
  | [drive, ':', '/'] => isAsciiAlphanumeric drive && !isAsciiDigit drive
  | _ => false

def validateRemoteDirectoryPath (path : Text) : AppResult Unit := do
  validateRemotePath path
  if path != ['/'] && !windowsDriveRoot path && ['/'].isSuffixOf path then
    .error (.validation "远程目录末尾不需要重复的斜杠".toList)
  else .ok ()

/-- `rsplit_once`: what stands before and behind the last separator. -/
def rsplitOnce (separator : Char) (value : Text) : Option (Text × Text) :=
  if value.contains separator then
    some ((value.rdropWhile (· != separator)).dropLast, value.rtakeWhile (· != separator))
  else none

def remoteParent (path : Text) : Option Text :=
  if path = ['/'] then none
  else
    let trimmed := path.rdropWhile (· == '/')
    (rsplitOnce '/' trimmed).map fun (parent, _) =>
      if parent.isEmpty then ['/']
      else if utf8Len parent == 2 && [':'].isSuffixOf parent then parent ++ ['/']
      else parent

def validateRemoteEntryName (name : Text) : AppResult Unit :=
  if isBlankText name || name == ['.'] || name == ['.', '.']
      || name.any (fun c => c == '/' || c == '\\' || c == '\x00') || 255 < utf8Len name then
    .error (.validation "远程名称必须是 1–255 字节且不含路径分隔符、NUL、. 或 ..".toList)
  else .ok ()

def remoteChildPath (directory name : Text) : AppResult Text := do
  validateRemoteDirectoryPath directory
  validateRemoteEntryName name
  return if ['/'].isSuffixOf directory then directory ++ name else directory ++ '/' :: name

/-! ## §2. What is accepted. -/

/-- An accepted remote path. -/
structure IsRemotePath (path : Text) : Prop where
  nul : '\x00' ∉ path
  backslash : '\\' ∉ path
  absolute : (∃ rest, path = '/' :: rest) ∨ ∃ drive rest, path = drive :: ':' :: '/' :: rest
    ∧ (isAsciiAlphanumeric drive && !isAsciiDigit drive) = true
  inside : ['.', '.'] ∉ path.splitOn '/'

/-- A check that refuses says so at once. -/
theorem refuse_ok_iff {bad : Bool} {refusal : AppError} {rest : AppResult Unit} :
    (if bad = true then .error refusal else rest) = .ok () ↔ bad = false ∧ rest = .ok () := by
  cases bad <;> simp

/-- Where the test for an absolute path succeeds. -/
theorem startsAbsolute_iff {path : Text} :
    (['/'].isPrefixOf path || match path with
        | drive :: ':' :: '/' :: _ => isAsciiAlphanumeric drive && !isAsciiDigit drive
        | _ => false) = true
      ↔ (∃ rest, path = '/' :: rest) ∨ ∃ drive rest, path = drive :: ':' :: '/' :: rest
        ∧ (isAsciiAlphanumeric drive && !isAsciiDigit drive) = true := by
  rw [Bool.or_eq_true, List.isPrefixOf_iff_prefix, List.prefix_iff_eq_append]
  apply or_congr
  · constructor
    · intro h
      exact ⟨path.drop 1, h.symm⟩
    · rintro ⟨rest, rfl⟩
      rfl
  · split
    next drive rest =>
      constructor
      · intro h
        exact ⟨drive, rest, rfl, h⟩
      · rintro ⟨_, _, heq, h⟩
        obtain ⟨rfl, -⟩ := List.cons.inj heq
        exact h
    next hother =>
      refine iff_of_false Bool.false_ne_true ?_
      rintro ⟨drive, rest, heq, -⟩
      exact hother drive rest heq

theorem validateRemotePath_ok_iff {path : Text} :
    validateRemotePath path = .ok () ↔ IsRemotePath path := by
  have hne : (∃ rest, path = '/' :: rest) ∨ (∃ drive rest, path = drive :: ':' :: '/' :: rest
      ∧ (isAsciiAlphanumeric drive && !isAsciiDigit drive) = true) → path.isEmpty = false := by
    rintro (⟨rest, rfl⟩ | ⟨drive, rest, rfl, -⟩) <;> rfl
  unfold validateRemotePath
  dsimp only
  rw [refuse_ok_iff, refuse_ok_iff, Bool.or_eq_false_iff, Bool.or_eq_false_iff,
    Bool.or_eq_false_iff, Bool.not_eq_false', List.contains_eq_mem, List.contains_eq_mem,
    List.contains_eq_mem, decide_eq_false_iff_not, decide_eq_false_iff_not, decide_eq_false_iff_not]
  constructor
  · rintro ⟨⟨⟨⟨-, hnul⟩, hbackslash⟩, habsolute⟩, hinside, -⟩
    exact ⟨hnul, hbackslash, startsAbsolute_iff.mp habsolute, hinside⟩
  · intro h
    exact ⟨⟨⟨⟨hne h.absolute, h.nul⟩, h.backslash⟩, startsAbsolute_iff.mpr h.absolute⟩, h.inside, rfl⟩

/-- An accepted directory ends in a slash only where it is a root. -/
structure IsRemoteDirectory (path : Text) : Prop where
  accepted : IsRemotePath path
  ending : path = ['/'] ∨ windowsDriveRoot path = true ∨ ¬ ['/'] <:+ path

theorem validateRemoteDirectoryPath_ok {path : Text}
    (h : validateRemoteDirectoryPath path = .ok ()) : IsRemoteDirectory path := by
  obtain ⟨⟨⟩, hpath, hrest⟩ := bind_eq_ok.mp h
  refine ⟨validateRemotePath_ok_iff.mp hpath, ?_⟩
  split at hrest
  next => cases hrest
  next hending =>
    simp only [Bool.and_eq_true, bne_iff_ne, Bool.not_eq_true', List.isSuffixOf_iff_suffix] at hending
    by_cases hroot : path = ['/']
    · exact .inl hroot
    · by_cases hdrive : windowsDriveRoot path = true
      · exact .inr (.inl hdrive)
      · exact .inr (.inr fun hslash => hending ⟨⟨hroot, by simpa using hdrive⟩, hslash⟩)

/-- An accepted name of an entry. -/
structure IsEntryName (name : Text) : Prop where
  ne_nil : name ≠ []
  ne_parent : name ≠ ['.', '.']
  slash : '/' ∉ name
  backslash : '\\' ∉ name
  nul : '\x00' ∉ name

theorem validateRemoteEntryName_ok {name : Text} (h : validateRemoteEntryName name = .ok ()) :
    IsEntryName name := by
  unfold validateRemoteEntryName at h
  split at h
  next => cases h
  next hbad =>
    simp only [Bool.or_eq_true, not_or, beq_iff_eq, decide_eq_true_eq, Bool.not_eq_true,
      List.any_eq_false] at hbad
    obtain ⟨⟨⟨⟨hblank, _⟩, hparent⟩, hchars⟩, _⟩ := hbad
    refine ⟨?_, hparent, fun hc => ?_, fun hc => ?_, fun hc => ?_⟩
    · rintro rfl
      cases hblank
    · simpa using hchars _ hc
    · simpa using hchars _ hc
    · simpa using hchars _ hc

/-! ## §3. The path of an entry. -/

section Entries

variable {directory name path : Text}

/-- A directory without the slash of a root. -/
def withoutRootSlash (directory : Text) : Text :=
  if ['/'].isSuffixOf directory then directory.dropLast else directory

theorem withoutRootSlash_append (h : ['/'].isSuffixOf directory = true) :
    directory = withoutRootSlash directory ++ ['/'] := by
  obtain ⟨front, rfl⟩ := List.isSuffixOf_iff_suffix.mp h
  rw [withoutRootSlash, if_pos h, List.dropLast_concat]

/-- **The path of an entry is its name behind one slash.** -/
theorem remoteChildPath_eq (h : remoteChildPath directory name = .ok path) :
    IsRemoteDirectory directory ∧ IsEntryName name
      ∧ path = withoutRootSlash directory ++ '/' :: name := by
  obtain ⟨⟨⟩, hdirectory, h⟩ := bind_eq_ok.mp h
  obtain ⟨⟨⟩, hname, h⟩ := bind_eq_ok.mp h
  refine ⟨validateRemoteDirectoryPath_ok hdirectory, validateRemoteEntryName_ok hname, ?_⟩
  rw [← Except.ok.inj h]
  by_cases hslash : ['/'].isSuffixOf directory = true
  · rw [if_pos hslash]
    nth_rewrite 1 [withoutRootSlash_append hslash]
    rw [List.append_assoc]
    rfl
  · rw [if_neg hslash, withoutRootSlash, if_neg hslash]

/-- **The path of an entry is accepted where its directory is.** -/
theorem childPath_accepted (hdirectory : IsRemoteDirectory directory) (hname : IsEntryName name) :
    IsRemotePath (withoutRootSlash directory ++ '/' :: name) := by
  have hparts : ∀ part, part ∈ (withoutRootSlash directory ++ '/' :: name).splitOn '/' →
      part ∈ directory.splitOn '/' ∨ part = name := by
    intro part hpart
    rw [List.splitOn_append_cons_self, List.splitOn_eq_singleton hname.slash] at hpart
    rcases List.mem_append.mp hpart with hpart | hpart
    · left
      by_cases hslash : ['/'].isSuffixOf directory = true
      · rw [withoutRootSlash_append hslash, List.splitOn_append_cons_self]
        exact List.mem_append_left _ hpart
      · rwa [withoutRootSlash, if_neg hslash] at hpart
    · exact .inr (List.mem_singleton.mp hpart)
  have hchars : ∀ c, c ∈ withoutRootSlash directory ++ '/' :: name →
      c ∈ directory ∨ c = '/' ∨ c ∈ name := by
    intro c hc
    rcases List.mem_append.mp hc with hc | hc
    · left
      unfold withoutRootSlash at hc
      split at hc
      · exact List.dropLast_subset _ hc
      · exact hc
    · exact .inr (List.mem_cons.mp hc)
  constructor
  · intro hc
    rcases hchars _ hc with hc | hc | hc
    · exact hdirectory.accepted.nul hc
    · exact absurd hc (by decide)
    · exact hname.nul hc
  · intro hc
    rcases hchars _ hc with hc | hc | hc
    · exact hdirectory.accepted.backslash hc
    · exact absurd hc (by decide)
    · exact hname.backslash hc
  · -- the start stays: the slash that a root loses is put back
    by_cases hslash : ['/'].isSuffixOf directory = true
    · have heq : withoutRootSlash directory ++ '/' :: name = directory ++ name := by
        nth_rewrite 2 [withoutRootSlash_append hslash]
        rw [List.append_assoc]
        rfl
      rw [heq]
      rcases hdirectory.accepted.absolute with ⟨rest, hrest⟩ | ⟨drive, rest, hrest, hdrive⟩
      · exact .inl ⟨rest ++ name, by rw [hrest]; rfl⟩
      · exact .inr ⟨drive, rest ++ name, by rw [hrest]; rfl, hdrive⟩
    · rw [withoutRootSlash, if_neg hslash]
      rcases hdirectory.accepted.absolute with ⟨rest, hrest⟩ | ⟨drive, rest, hrest, hdrive⟩
      · exact .inl ⟨rest ++ '/' :: name, by rw [hrest]; rfl⟩
      · exact .inr ⟨drive, rest ++ '/' :: name, by rw [hrest]; rfl, hdrive⟩
  · intro hpart
    rcases hparts _ hpart with hpart | hpart
    · exact hdirectory.accepted.inside hpart
    · exact hname.ne_parent hpart.symm

end Entries

/-! ## §4. The parent of an entry. -/

theorem rsplitOnce_append {separator : Char} (before : Text) {after : Text}
    (h : separator ∉ after) :
    rsplitOnce separator (before ++ separator :: after) = some (before, after) := by
  have hskip : ∀ c ∈ after.reverse, (c != separator) = true := by
    intro c hc
    rw [bne_iff_ne]
    rintro rfl
    exact h (List.mem_reverse.mp hc)
  have hreverse : (before ++ separator :: after).reverse
      = after.reverse ++ separator :: before.reverse := by simp
  have hdrop : (before ++ separator :: after).rdropWhile (· != separator)
      = before ++ [separator] := by
    rw [List.rdropWhile, hreverse, List.dropWhile_append_of_pos hskip]
    simp
  have htake : (before ++ separator :: after).rtakeWhile (· != separator) = after := by
    rw [List.rtakeWhile, hreverse, List.takeWhile_append_of_pos hskip]
    simp
  rw [rsplitOnce, if_pos (by simp), hdrop, htake, List.dropLast_concat]

/-- **The parent is what stands before the last slash, and a root keeps its slash.** -/
theorem remoteParent_slash (front : Text) {name : Text} (hname : IsEntryName name) :
    remoteParent (front ++ '/' :: name) = some (if front.isEmpty then ['/']
      else if utf8Len front == 2 && [':'].isSuffixOf front then front ++ ['/'] else front) := by
  have hroot : front ++ '/' :: name ≠ ['/'] := by
    intro heq
    cases front with
    | nil => exact hname.ne_nil (List.cons.inj heq).2
    | cons c front => simp at heq
  have htrim : (front ++ '/' :: name).rdropWhile (· == '/') = front ++ '/' :: name := by
    rw [List.rdropWhile_eq_self_iff]
    intro hne
    have hlast : (front ++ '/' :: name).getLast hne = name.getLast hname.ne_nil := by
      rw [List.getLast_append_of_ne_nil _ (List.cons_ne_nil _ _),
        List.getLast_cons hname.ne_nil]
    rw [hlast, beq_iff_eq]
    intro heq
    exact hname.slash (heq ▸ List.getLast_mem hname.ne_nil)
  unfold remoteParent
  rw [if_neg hroot]
  dsimp only
  rw [htrim, rsplitOnce_append front hname.slash]
  rfl

theorem utf8Size_letter {c : Char} (h : (isAsciiAlphanumeric c && !isAsciiDigit c) = true) :
    c.utf8Size = 1 := by
  rw [Char.utf8Size_eq_one_iff]
  simp only [isAsciiAlphanumeric, Bool.and_eq_true, Bool.or_eq_true, decide_eq_true_eq,
    Char.le_def] at h
  have hz : ('z' : Char).val ≤ 127 := by decide
  have hZ : ('Z' : Char).val ≤ 127 := by decide
  have h9 : ('9' : Char).val ≤ 127 := by decide
  rcases h.1 with (hc | hc) | hc
  · exact UInt32.le_trans hc.2 h9
  · exact UInt32.le_trans hc.2 hz
  · exact UInt32.le_trans hc.2 hZ

/-- A directory of two bytes that ends in a colon. -/
theorem two_bytes_colon {directory : Text} (h : IsRemotePath directory)
    (hlen : utf8Len directory = 2) (hcolon : [':'] <:+ directory) : directory = ['/', ':'] := by
  obtain ⟨front, rfl⟩ := hcolon
  rcases h.absolute with ⟨rest, hrest⟩ | ⟨drive, rest, hrest, -⟩
  · cases front with
    | nil => simp at hrest
    | cons c front =>
        obtain ⟨rfl, -⟩ := List.cons.inj hrest
        cases front with
        | nil => rfl
        | cons d front =>
            -- a third character has at least a byte of its own
            have hd := Char.utf8Size_pos d
            have hslash : ('/' : Char).utf8Size = 1 := by decide
            have hcolon : (':' : Char).utf8Size = 1 := by decide
            simp only [List.cons_append, String.utf8Len_cons, String.utf8Len_append,
              String.utf8Len_nil] at hlen
            omega
  · have hd := Char.utf8Size_pos drive
    have hslash : ('/' : Char).utf8Size = 1 := by decide
    have hcolon : (':' : Char).utf8Size = 1 := by decide
    rw [hrest] at hlen
    simp only [String.utf8Len_cons] at hlen
    omega

/-- **The path of an entry is accepted, and its parent is the directory it was built from,
exactly when that is not `/:`.** -/
theorem parent_of_child_iff {directory name path : Text}
    (h : remoteChildPath directory name = .ok path) :
    (validateRemotePath path = .ok () ∧ remoteParent path = some directory)
      ↔ directory ≠ "/:".toList := by
  obtain ⟨hdirectory, hname, rfl⟩ := remoteChildPath_eq h
  have haccepted := validateRemotePath_ok_iff.mpr (childPath_accepted hdirectory hname)
  rw [remoteParent_slash _ hname]
  constructor
  · rintro ⟨-, hparent⟩ rfl
    exact absurd hparent (by decide)
  · intro hne
    refine ⟨haccepted, congrArg some ?_⟩
    rcases hdirectory.ending with rfl | hdrive | hslash
    · rfl
    · -- the root of a drive loses its slash and gets it back
      unfold windowsDriveRoot at hdrive
      split at hdrive
      next drive =>
        have hkeep : withoutRootSlash [drive, ':', '/'] = [drive, ':'] := rfl
        have hsize : utf8Len [drive, ':'] = 2 := by
          rw [String.utf8Len_cons, utf8Size_letter hdrive]
          rfl
        rw [hkeep, hsize]
        rfl
      next => cases hdrive
    · have hkeep : withoutRootSlash directory = directory := by
        rw [withoutRootSlash, if_neg]
        rwa [List.isSuffixOf_iff_suffix]
      have hempty : directory.isEmpty = false := by
        rcases hdirectory.accepted.absolute with ⟨rest, rfl⟩ | ⟨drive, rest, rfl, -⟩ <;> rfl
      have hdrive : (utf8Len directory == 2 && [':'].isSuffixOf directory) = false := by
        rw [Bool.and_eq_false_iff, beq_eq_false_iff_ne, ← Bool.not_eq_true,
          List.isSuffixOf_iff_suffix, ← not_and_or]
        intro hcolon
        exact hne (two_bytes_colon hdirectory.accepted hcolon.1 hcolon.2)
      rw [hkeep, hempty, hdrive]
      rfl

theorem parent_of_logs : (validateRemotePath "C:/logs".toList = .ok ()
    ∧ remoteParent "C:/logs".toList = some "C:/".toList) ↔ "C:/".toList ≠ "/:".toList :=
  @parent_of_child_iff _ "logs".toList _ (by decide)

/-- **Below a directory `:` of the root the parent has a slash too many.** -/
theorem colon_directory_slash : remoteChildPath "/:".toList "x".toList = .ok "/:/x".toList
    ∧ remoteParent "/:/x".toList = some "/:/".toList
    ∧ remoteParent "/:/x".toList ≠ some "/:".toList
    ∧ validateRemoteDirectoryPath "/:/".toList ≠ .ok () := by
  decide

end QingzhouSSH.Core.Sftp
