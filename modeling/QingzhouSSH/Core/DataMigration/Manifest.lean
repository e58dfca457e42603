/-
  QingzhouSSH.Core.DataMigration.Manifest — what a data directory has in it.

  A manifest lists the directories and files below a root, in the order of their paths.  The
  files of a migration itself, which lie in the root, are left out.

  Main results:
    * `mem_scanManifest` — a manifest has what the tree looks like at every migrated path;
    * `scanManifest_congr` — trees that look the same have one manifest;
    * `scanManifest_isOk` — when a tree has a manifest.
-/
import Mathlib.Algebra.GroupWithZero.Nat
import Mathlib.Data.List.Lex
import Mathlib.Data.List.Sort
import QingzhouSSH.Core.Error
import QingzhouSSH.Lib.FileTree

namespace QingzhouSSH.Core.DataMigration

open QingzhouSSH.Lib.FileTree

/-! ## §1. Names. -/

abbrev Bytes := List UInt8

/-- The names of files on a platform. -/
class OsName (ν : Type) extends LinearOrder ν where
  ofText : Text → ν
  toStringLossy : ν → Text
  mainSeparator : Char
  toStringLossy_ofText : ∀ text, toStringLossy (ofText text) = text

def migrationJournalFile : Text := ".qingzhou-data-migration.json".toList

def migrationCompleteFile : Text := ".qingzhou-data-migration-complete.json".toList

def allowedRootEntries : List Text :=
  ["app.db".toList, "app.db-wal".toList, "app.db-shm".toList, "vault".toList, "logs".toList,
    "downloads".toList, "backups".toList, "templates".toList, "cache".toList, "updates".toList,
    migrationJournalFile, migrationCompleteFile]

/-! ## §2. Manifests. -/

inductive ManifestEntryKind where
  | file
  | directory
  deriving DecidableEq

structure DataMigrationManifestEntry (ν : Type) where
  relativePath : List ν
  kind : ManifestEntryKind
  sizeBytes : Nat
  sha256 : Option Text
  deriving DecidableEq

structure DataMigrationManifest (ν : Type) where
  entries : List (DataMigrationManifestEntry ν)
  fileCount : Nat
  totalBytes : Nat
  deriving DecidableEq

/-- `MigrationEnvironment::is_reparse_point`. -/
structure MigrationEnvironment (ν : Type) where
  isReparsePoint : List ν → AppResult Bool

/-- Nothing is a link. -/
def MigrationEnvironment.Regular {ν : Type} (environment : MigrationEnvironment ν) : Prop :=
  ∀ path, environment.isReparsePoint path = .ok false

section Scan

variable {ν : Type} [OsName ν] (sha256 : Bytes → Text) (environment : MigrationEnvironment ν)
  (root : List ν)

/-- `hash_file`: the length saturates. -/
def hashFile (content : Bytes) : Nat × Text := (min content.length (2 ^ 64 - 1), sha256 content)

/-- `Path::display`. -/
def displayPath (path : List ν) : Text :=
  [OsName.mainSeparator ν].intercalate (path.map OsName.toStringLossy)

def entryOf (relativePath : List ν) : Leaf Bytes → DataMigrationManifestEntry ν
  | .file content =>
      ⟨relativePath, .file, (hashFile sha256 content).1, some (hashFile sha256 content).2⟩
  | .dir => ⟨relativePath, .directory, 0, none⟩

def requireNoReparsePoint (relativePath : List ν) : AppResult Unit := do
  if ← environment.isReparsePoint (root ++ relativePath) then
    .error (.security ("数据目录包含链接或重解析项：".toList ++ displayPath relativePath))

mutual

/-- `scan_entry`, of an entry that is a file or a directory. -/
def scanEntry (relativePath : List ν) :
    Node ν Bytes → AppResult (List (DataMigrationManifestEntry ν))
  | .file content => do
      requireNoReparsePoint environment root relativePath
      return [entryOf sha256 relativePath (.file content)]
  | .dir children => do
      requireNoReparsePoint environment root relativePath
      let below ← scanChildren relativePath children
      return entryOf sha256 relativePath .dir :: below

def scanChildren (relativePath : List ν) :
    List (ν × Node ν Bytes) → AppResult (List (DataMigrationManifestEntry ν))
  | [] => return []
  | (name, child) :: rest => do
      let first ← scanEntry (relativePath ++ [name]) child
      let others ← scanChildren relativePath rest
      return first ++ others

end

def isMigrationFile (name : ν) : Prop :=
  OsName.toStringLossy name = migrationJournalFile
    ∨ OsName.toStringLossy name = migrationCompleteFile

instance (name : ν) : Decidable (isMigrationFile name) := inferInstanceAs (Decidable (_ ∨ _))

/-- The loop of `scan_manifest` over the entries of the root. -/
def scanRoot : List (ν × Node ν Bytes) → AppResult (List (DataMigrationManifestEntry ν))
  | [] => return []
  | (name, node) :: rest => do
      if OsName.toStringLossy name ∉ allowedRootEntries then
        .error (.security
          ("数据目录包含未声明的根级项目：".toList ++ OsName.toStringLossy name))
      else if isMigrationFile name then scanRoot rest
      else do
        let first ← scanEntry sha256 environment root [name] node
        let others ← scanRoot rest
        return first ++ others

/-- `read_dir` of something else. -/
def notADirectory : Text := "Not a directory (os error 20)".toList

/-- `left.relative_path.cmp(&right.relative_path)`: by components. -/
def byPath (left right : DataMigrationManifestEntry ν) : Prop :=
  left.relativePath ≤ right.relativePath

instance : DecidableRel (byPath (ν := ν)) := fun _ _ => inferInstanceAs (Decidable (_ ≤ _))

instance : Std.Total (byPath (ν := ν)) := ⟨fun _ _ => le_total _ _⟩

instance : IsTrans (DataMigrationManifestEntry ν) byPath := ⟨fun _ _ _ => le_trans⟩

/-- `scan_manifest`: the sum of the sizes wraps. -/
def scanManifest : Node ν Bytes → AppResult (DataMigrationManifest ν)
  | .file _ => .error (.io notADirectory)
  | .dir children => do
      let entries := (← scanRoot sha256 environment root children).insertionSort byPath
      return {
        entries := entries
        fileCount := (entries.filter fun entry => entry.kind = .file).length
        totalBytes := (entries.map fun entry => entry.sizeBytes).sum % 2 ^ 64 }

end Scan

/-! ## §3. Entries and listings. -/

/-- The paths that a migration copies. -/
def Migrated {ν : Type} [OsName ν] (path : List ν) : Prop :=
  ∃ name ∈ path.head?, ¬ isMigrationFile name

section Listing

variable {ν : Type} [OsName ν] {sha256 : Bytes → Text} {environment : MigrationEnvironment ν}
  {root : List ν}

omit [OsName ν] in
theorem entryOf_path (path : List ν) (leaf : Leaf Bytes) :
    (entryOf sha256 path leaf).relativePath = path := by
  cases leaf with
  | file content => rfl
  | dir => rfl

mutual

/-- **What is scanned is what is listed.** -/
theorem scanEntry_ok {path : List ν} {entries : List (DataMigrationManifestEntry ν)} :
    (node : Node ν Bytes) → scanEntry sha256 environment root path node = .ok entries →
    entries = (node.listing path).map fun e => entryOf sha256 e.1 e.2
  | .file content, h => by
      obtain ⟨_, _, h⟩ := bind_eq_ok.mp h
      exact (Except.ok.inj h).symm
  | .dir children, h => by
      obtain ⟨_, _, h⟩ := bind_eq_ok.mp h
      obtain ⟨below, hbelow, h⟩ := bind_eq_ok.mp h
      rw [← Except.ok.inj h, scanChildren_ok children hbelow]
      rfl

theorem scanChildren_ok {path : List ν} {entries : List (DataMigrationManifestEntry ν)} :
    (children : List (ν × Node ν Bytes)) →
    scanChildren sha256 environment root path children = .ok entries →
    entries = (Node.listingEntries path children).map fun e => entryOf sha256 e.1 e.2
  | [], h => (Except.ok.inj h).symm
  | (name, child) :: rest, h => by
      obtain ⟨first, hfirst, h⟩ := bind_eq_ok.mp h
      obtain ⟨others, hothers, h⟩ := bind_eq_ok.mp h
      rw [← Except.ok.inj h, scanEntry_ok child hfirst, scanChildren_ok rest hothers]
      exact List.map_append.symm

end

mutual

theorem scanEntry_isOk (h : environment.Regular) (path : List ν) :
    (node : Node ν Bytes) → ∃ entries, scanEntry sha256 environment root path node = .ok entries
  | .file content => by
      unfold scanEntry requireNoReparsePoint
      rw [h]
      exact ⟨_, rfl⟩
  | .dir children => by
      obtain ⟨below, hbelow⟩ := scanChildren_isOk h path children
      unfold scanEntry requireNoReparsePoint
      rw [h, hbelow]
      exact ⟨_, rfl⟩

theorem scanChildren_isOk (h : environment.Regular) (path : List ν) :
    (children : List (ν × Node ν Bytes)) →
    ∃ entries, scanChildren sha256 environment root path children = .ok entries
  | [] => ⟨_, rfl⟩
  | (name, child) :: rest => by
      obtain ⟨first, hfirst⟩ := scanEntry_isOk h (path ++ [name]) child
      obtain ⟨others, hothers⟩ := scanChildren_isOk h path rest
      exact ⟨first ++ others, by rw [scanChildren, hfirst, hothers]; rfl⟩

end

/-- What is listed below the entries of a root that are migrated. -/
def rootListing (children : List (ν × Node ν Bytes)) : List (List ν × Leaf Bytes) :=
  (children.filter fun e => ¬ isMigrationFile e.1).flatMap fun e => e.2.listing [e.1]

theorem rootListing_cons (e : ν × Node ν Bytes) (children : List (ν × Node ν Bytes)) :
    rootListing (e :: children)
      = if isMigrationFile e.1 then rootListing children
        else e.2.listing [e.1] ++ rootListing children := by
  unfold rootListing
  by_cases h : isMigrationFile e.1
  · rw [if_pos h, List.filter_cons_of_neg (by simpa using h)]
  · rw [if_neg h, List.filter_cons_of_pos (by simpa using h), List.flatMap_cons]

theorem scanRoot_ok {children : List (ν × Node ν Bytes)}
    {entries : List (DataMigrationManifestEntry ν)}
    (h : scanRoot sha256 environment root children = .ok entries) :
    entries = (rootListing children).map (fun e => entryOf sha256 e.1 e.2)
      ∧ ∀ name ∈ children.map Prod.fst, OsName.toStringLossy name ∈ allowedRootEntries := by
  induction children generalizing entries with
  | nil => exact ⟨(Except.ok.inj h).symm, nofun⟩
  | cons e children ih =>
      obtain ⟨name, node⟩ := e
      rw [rootListing_cons]
      unfold scanRoot at h
      by_cases hallowed : OsName.toStringLossy name ∈ allowedRootEntries
      · rw [if_neg (not_not.mpr hallowed)] at h
        by_cases hfile : isMigrationFile name
        · rw [if_pos hfile] at h
          obtain ⟨hentries, hnames⟩ := ih h
          rw [if_pos hfile]
          exact ⟨hentries, List.forall_mem_cons.mpr ⟨hallowed, hnames⟩⟩
        · rw [if_neg hfile] at h
          obtain ⟨first, hfirst, h⟩ := bind_eq_ok.mp h
          obtain ⟨others, hothers, h⟩ := bind_eq_ok.mp h
          obtain ⟨hentries, hnames⟩ := ih hothers
          rw [if_neg hfile, List.map_append]
          refine ⟨?_, List.forall_mem_cons.mpr ⟨hallowed, hnames⟩⟩
          rw [← Except.ok.inj h, scanEntry_ok node hfirst, hentries]
      · rw [if_pos hallowed] at h
        exact absurd h (by simp)

theorem scanRoot_isOk (h : environment.Regular) {children : List (ν × Node ν Bytes)}
    (hallowed : ∀ name ∈ children.map Prod.fst, OsName.toStringLossy name ∈ allowedRootEntries) :
    ∃ entries, scanRoot sha256 environment root children = .ok entries := by
  induction children with
  | nil => exact ⟨_, rfl⟩
  | cons e children ih =>
      obtain ⟨name, node⟩ := e
      obtain ⟨hname, hnames⟩ := List.forall_mem_cons.mp hallowed
      obtain ⟨others, hothers⟩ := ih hnames
      unfold scanRoot
      rw [if_neg (not_not.mpr hname)]
      by_cases hfile : isMigrationFile name
      · rw [if_pos hfile]
        exact ⟨others, hothers⟩
      · obtain ⟨first, hfirst⟩ := @scanEntry_isOk _ _ sha256 _ root h [name] node
        rw [if_neg hfile, hfirst, hothers]
        exact ⟨_, rfl⟩

/-! ## §4. Manifests and trees. -/

theorem mem_rootListing {children : List (ν × Node ν Bytes)} (hnamed : (Node.dir children).Named)
    (path : List ν) (leaf : Leaf Bytes) :
    (path, leaf) ∈ rootListing children
      ↔ Migrated path ∧ (Node.dir children).look path = some leaf := by
  cases hnamed with
  | dir hnodup hentries =>
      unfold rootListing
      rw [List.mem_flatMap]
      constructor
      · rintro ⟨⟨name, node⟩, hmem, hlisted⟩
        rw [List.mem_filter, decide_eq_true_eq] at hmem
        obtain ⟨rest, rfl, hlook⟩ := (Node.mem_listing (hentries _ hmem.1) _ _ _).mp hlisted
        refine ⟨⟨name, rfl, hmem.2⟩, ?_⟩
        show (Node.entry children name).bind _ = _
        rw [Node.entry_of_mem hnodup hmem.1]
        exact hlook
      · rintro ⟨⟨name, hname, hfile⟩, hlook⟩
        cases path with
        | nil => exact absurd hname (by simp)
        | cons first rest =>
            obtain rfl : first = name := Option.some.inj hname
            obtain ⟨node, hentry, hnode⟩ := Option.bind_eq_some_iff.mp hlook
            have hmem := Node.mem_of_entry hentry
            refine ⟨(first, node), ?_, (Node.mem_listing (hentries _ hmem) _ _ _).mpr
              ⟨rest, rfl, hnode⟩⟩
            rw [List.mem_filter, decide_eq_true_eq]
            exact ⟨hmem, hfile⟩

theorem nodup_rootListing {children : List (ν × Node ν Bytes)}
    (hnamed : (Node.dir children).Named) : ((rootListing children).map Prod.fst).Nodup := by
  cases hnamed with
  | dir hnodup hentries =>
      -- the entries that are left make a directory of their own
      have hleft : (Node.dir (children.filter fun e => ¬ isMigrationFile e.1)).Named :=
        .dir (hnodup.sublist (List.filter_sublist.map _)) fun e he =>
          hentries e (List.mem_filter.mp he).1
      have hall := Node.nodup_listing hleft []
      rw [Node.listing, Node.listingEntries_eq, List.map_cons, List.nodup_cons] at hall
      exact hall.2

/-- What a manifest is made of. -/
theorem scanManifest_eq {tree : Node ν Bytes} {manifest : DataMigrationManifest ν}
    (h : scanManifest sha256 environment root tree = .ok manifest) :
    ∃ children, tree = .dir children
      ∧ manifest.entries
        = ((rootListing children).map fun e => entryOf sha256 e.1 e.2).insertionSort byPath
      ∧ manifest.fileCount = (manifest.entries.filter fun entry => entry.kind = .file).length
      ∧ manifest.totalBytes = (manifest.entries.map fun entry => entry.sizeBytes).sum % 2 ^ 64
      ∧ ∀ name ∈ children.map Prod.fst, OsName.toStringLossy name ∈ allowedRootEntries := by
  cases tree with
  | file content => exact absurd h (by simp [scanManifest])
  | dir children =>
      obtain ⟨entries, hentries, h⟩ := bind_eq_ok.mp h
      obtain ⟨rfl, hallowed⟩ := scanRoot_ok hentries
      obtain rfl := Except.ok.inj h
      exact ⟨children, rfl, rfl, rfl, rfl, hallowed⟩

/-- **A manifest has what the tree looks like at every migrated path.** -/
theorem mem_scanManifest {tree : Node ν Bytes} {manifest : DataMigrationManifest ν}
    (h : scanManifest sha256 environment root tree = .ok manifest) (hnamed : tree.Named)
    (entry : DataMigrationManifestEntry ν) :
    entry ∈ manifest.entries ↔ ∃ path leaf, Migrated path ∧ tree.look path = some leaf
      ∧ entry = entryOf sha256 path leaf := by
  obtain ⟨children, rfl, hentries, _⟩ := scanManifest_eq h
  rw [hentries, List.mem_insertionSort, List.mem_map]
  constructor
  · rintro ⟨⟨path, leaf⟩, hmem, rfl⟩
    obtain ⟨hmigrated, hlook⟩ := (mem_rootListing hnamed path leaf).mp hmem
    exact ⟨path, leaf, hmigrated, hlook, rfl⟩
  · rintro ⟨path, leaf, hmigrated, hlook, rfl⟩
    exact ⟨(path, leaf), (mem_rootListing hnamed path leaf).mpr ⟨hmigrated, hlook⟩, rfl⟩

theorem scanManifest_sorted {tree : Node ν Bytes} {manifest : DataMigrationManifest ν}
    (h : scanManifest sha256 environment root tree = .ok manifest) :
    manifest.entries.Pairwise byPath := by
  obtain ⟨children, _, hentries, _⟩ := scanManifest_eq h
  rw [hentries]
  exact List.pairwise_insertionSort byPath _

/-- No path is in a manifest twice. -/
theorem scanManifest_nodup {tree : Node ν Bytes} {manifest : DataMigrationManifest ν}
    (h : scanManifest sha256 environment root tree = .ok manifest) (hnamed : tree.Named) :
    (manifest.entries.map DataMigrationManifestEntry.relativePath).Nodup := by
  obtain ⟨children, rfl, hentries, _⟩ := scanManifest_eq h
  rw [hentries, ((List.perm_insertionSort byPath _).map _).nodup_iff, List.map_map]
  have hpaths : (DataMigrationManifestEntry.relativePath
      ∘ fun e : List ν × Leaf Bytes => entryOf sha256 e.1 e.2) = Prod.fst :=
    funext fun e => entryOf_path e.1 e.2
  rw [hpaths]
  exact nodup_rootListing hnamed

/-- **Trees that look the same have one manifest.** -/
theorem scanManifest_congr {environment' : MigrationEnvironment ν} {root' : List ν}
    {tree tree' : Node ν Bytes} {manifest manifest' : DataMigrationManifest ν}
    (h : scanManifest sha256 environment root tree = .ok manifest)
    (h' : scanManifest sha256 environment' root' tree' = .ok manifest')
    (hnamed : tree.Named) (hnamed' : tree'.Named)
    (hsame : ∀ path, Migrated path →
      (tree.look path).map (entryOf sha256 path) = (tree'.look path).map (entryOf sha256 path)) :
    manifest = manifest' := by
  have hmem : ∀ entry, entry ∈ manifest.entries ↔ entry ∈ manifest'.entries := by
    intro entry
    rw [mem_scanManifest h hnamed, mem_scanManifest h' hnamed']
    refine exists_congr fun path => ?_
    constructor
    · rintro ⟨leaf, hmigrated, hlook, rfl⟩
      have hentry := hsame path hmigrated
      rw [hlook, Option.map_some] at hentry
      obtain ⟨leaf', hlook', hleaf⟩ := Option.map_eq_some_iff.mp hentry.symm
      exact ⟨leaf', hmigrated, hlook', hleaf.symm⟩
    · rintro ⟨leaf, hmigrated, hlook, rfl⟩
      have hentry := hsame path hmigrated
      rw [hlook, Option.map_some] at hentry
      obtain ⟨leaf', hlook', hleaf⟩ := Option.map_eq_some_iff.mp hentry
      exact ⟨leaf', hmigrated, hlook', hleaf.symm⟩
  have hnodup := scanManifest_nodup h hnamed
  have hperm : manifest.entries.Perm manifest'.entries :=
    (List.perm_ext_iff_of_nodup hnodup.of_map (scanManifest_nodup h' hnamed').of_map).mpr hmem
  have hentries : manifest.entries = manifest'.entries := by
    refine hperm.eq_of_pairwise (fun a b ha hb hab hba => ?_) (scanManifest_sorted h)
      (scanManifest_sorted h')
    exact List.inj_on_of_nodup_map hnodup ha ((hmem b).mpr hb) (le_antisymm hab hba)
  obtain ⟨_, _, _, hcount, htotal, _⟩ := scanManifest_eq h
  obtain ⟨_, _, _, hcount', htotal', _⟩ := scanManifest_eq h'
  rw [hentries] at hcount htotal
  cases manifest with
  | mk entries fileCount totalBytes =>
      cases manifest' with
      | mk entries' fileCount' totalBytes' =>
          obtain rfl : entries = entries' := hentries
          rw [show fileCount = fileCount' from hcount.trans hcount'.symm,
            show totalBytes = totalBytes' from htotal.trans htotal'.symm]

/-- A tree that has a manifest is a directory with declared entries. -/
theorem scanManifest_declared {tree : Node ν Bytes} {manifest : DataMigrationManifest ν}
    (h : scanManifest sha256 environment root tree = .ok manifest) :
    tree.look [] = some .dir ∧ ∀ name leaf, tree.look [name] = some leaf →
      OsName.toStringLossy name ∈ allowedRootEntries := by
  obtain ⟨children, rfl, _, _, _, hallowed⟩ := scanManifest_eq h
  refine ⟨rfl, fun name leaf hlook => hallowed name ?_⟩
  obtain ⟨node, hentry, _⟩ := Option.bind_eq_some_iff.mp hlook
  exact List.mem_map.mpr ⟨_, Node.mem_of_entry hentry, rfl⟩

/-- **Such a tree has a manifest, where nothing is a link.** -/
theorem scanManifest_isOk (hregular : environment.Regular) {tree : Node ν Bytes}
    (hroot : tree.look [] = some .dir)
    (hallowed : ∀ name leaf, tree.look [name] = some leaf →
      OsName.toStringLossy name ∈ allowedRootEntries) :
    ∃ manifest, scanManifest sha256 environment root tree = .ok manifest := by
  cases tree with
  | file content => exact absurd (Option.some.inj hroot) (by simp [Node.leaf])
  | dir children =>
      have hnames : ∀ name ∈ children.map Prod.fst,
          OsName.toStringLossy name ∈ allowedRootEntries := by
        intro name hname
        obtain ⟨e, he, rfl⟩ := List.mem_map.mp hname
        obtain ⟨node, hentry⟩ : ∃ node, Node.entry children e.1 = some node := by
          unfold Node.entry
          cases hfind : children.find? fun other => other.1 = e.1 with
          | none => exact absurd (decide_eq_true rfl) (List.find?_eq_none.mp hfind e he)
          | some other => exact ⟨_, rfl⟩
        refine hallowed e.1 node.leaf ?_
        show (Node.entry children e.1).bind _ = _
        rw [hentry]
        rfl
      obtain ⟨entries, hentries⟩ := @scanRoot_isOk _ _ sha256 _ root hregular _ hnames
      exact ⟨_, by rw [scanManifest, hentries]; rfl⟩

end Listing

end QingzhouSSH.Core.DataMigration
