/-
  QingzhouSSH.Lib.FileTree — trees of directories and files.

  A directory lists its entries in the order in which it is read.  What a tree looks
  like at a path (`look`) does not depend on this order, and two trees that look the same
  have the same paths.

  Main results:
    * `mem_listing` — a listing has what the tree looks like at every path;
    * `look_createDirAll`, `look_writeFile` — an operation changes its own path only;
    * `createDirAll_isSome`, `writeFile_isSome` — when an operation succeeds.
-/
import Mathlib.Data.List.Nodup
import Mathlib.Data.List.Basic

namespace QingzhouSSH.Lib.FileTree

variable {ν β : Type}

/-! ## §1. Trees. -/

inductive Node (ν β : Type) where
  | file (content : β)
  | dir (entries : List (ν × Node ν β))

/-- What is at a path, the entries of a directory left out. -/
inductive Leaf (β : Type) where
  | file (content : β)
  | dir
  deriving DecidableEq

namespace Node

variable [DecidableEq ν]

def leaf : Node ν β → Leaf β
  | file content => .file content
  | dir _ => .dir

def entry (entries : List (ν × Node ν β)) (name : ν) : Option (Node ν β) :=
  (entries.find? fun e => e.1 = name).map Prod.snd

def child : Node ν β → ν → Option (Node ν β)
  | file _, _ => none
  | dir entries, name => entry entries name

def look (node : Node ν β) : List ν → Option (Leaf β)
  | [] => some node.leaf
  | name :: path => (node.child name).bind fun child => child.look path

/-- The entries of a directory have names of their own, here and below. -/
inductive Named : Node ν β → Prop where
  | file (content : β) : Named (file content)
  | dir {entries : List (ν × Node ν β)} (hnodup : (entries.map Prod.fst).Nodup)
      (hentries : ∀ e ∈ entries, Named e.2) : Named (dir entries)

/-! ## §2. Entries. -/

theorem entry_cons (e : ν × Node ν β) (entries : List (ν × Node ν β)) (name : ν) :
    entry (e :: entries) name = if e.1 = name then some e.2 else entry entries name := by
  unfold entry
  by_cases h : e.1 = name
  · rw [List.find?_cons_of_pos (by simpa using h), if_pos h]
    rfl
  · rw [List.find?_cons_of_neg (by simpa using h), if_neg h]

theorem mem_of_entry {entries : List (ν × Node ν β)} {name : ν} {node : Node ν β}
    (h : entry entries name = some node) : (name, node) ∈ entries := by
  unfold entry at h
  obtain ⟨e, hfind, rfl⟩ := Option.map_eq_some_iff.mp h
  have hname : e.1 = name := by simpa using List.find?_some hfind
  have hmem := List.mem_of_find?_eq_some hfind
  rw [← hname]
  exact hmem

theorem entry_of_mem {entries : List (ν × Node ν β)} (hnodup : (entries.map Prod.fst).Nodup)
    {name : ν} {node : Node ν β} (h : (name, node) ∈ entries) :
    entry entries name = some node := by
  induction entries with
  | nil => exact absurd h List.not_mem_nil
  | cons e entries ih =>
      rw [List.map_cons, List.nodup_cons] at hnodup
      rw [entry_cons]
      rcases List.mem_cons.mp h with rfl | h
      · rw [if_pos rfl]
      · have hother : e.1 ≠ name := by
          rintro rfl
          exact hnodup.1 (List.mem_map.mpr ⟨_, h, rfl⟩)
        rw [if_neg hother]
        exact ih hnodup.2 h

/-- Replace an entry, or add it behind the others. -/
def setEntry (name : ν) (node : Node ν β) : List (ν × Node ν β) → List (ν × Node ν β)
  | [] => [(name, node)]
  | e :: entries => if e.1 = name then (name, node) :: entries else e :: setEntry name node entries

theorem entry_setEntry (name : ν) (node : Node ν β) (entries : List (ν × Node ν β)) (other : ν) :
    entry (setEntry name node entries) other
      = if other = name then some node else entry entries other := by
  induction entries with
  | nil =>
      unfold setEntry
      rw [entry_cons]
      by_cases h : other = name
      · rw [if_pos h, if_pos h.symm]
      · rw [if_neg h, if_neg (Ne.symm h)]
  | cons e entries ih =>
      unfold setEntry
      by_cases he : e.1 = name
      · rw [if_pos he, entry_cons]
        by_cases h : other = name
        · rw [if_pos h, if_pos h.symm]
        · rw [if_neg h, if_neg (Ne.symm h), entry_cons, if_neg fun hsame => h (hsame.symm.trans he)]
      · rw [if_neg he, entry_cons, entry_cons, ih]
        by_cases h : e.1 = other
        · rw [if_pos h, if_pos h, if_neg fun hsame => he (h.trans hsame)]
        · rw [if_neg h, if_neg h]

theorem names_setEntry (name : ν) (node : Node ν β) (entries : List (ν × Node ν β)) :
    ∀ other ∈ (setEntry name node entries).map Prod.fst,
      other = name ∨ other ∈ entries.map Prod.fst := by
  intro other hmem
  induction entries with
  | nil => exact Or.inl (List.mem_singleton.mp hmem)
  | cons e entries ih =>
      unfold setEntry at hmem
      by_cases he : e.1 = name
      · rw [if_pos he, List.map_cons] at hmem
        rcases List.mem_cons.mp hmem with h | h
        · exact Or.inl h
        · exact Or.inr (List.mem_cons_of_mem _ h)
      · rw [if_neg he, List.map_cons] at hmem
        rcases List.mem_cons.mp hmem with h | h
        · exact Or.inr (h ▸ List.mem_cons_self)
        · rcases ih h with h | h
          · exact Or.inl h
          · exact Or.inr (List.mem_cons_of_mem _ h)

theorem nodup_setEntry (name : ν) (node : Node ν β) {entries : List (ν × Node ν β)}
    (h : (entries.map Prod.fst).Nodup) : ((setEntry name node entries).map Prod.fst).Nodup := by
  induction entries with
  | nil => exact List.nodup_singleton name
  | cons e entries ih =>
      rw [List.map_cons, List.nodup_cons] at h
      unfold setEntry
      by_cases he : e.1 = name
      · rw [if_pos he, List.map_cons, List.nodup_cons]
        exact ⟨he ▸ h.1, h.2⟩
      · rw [if_neg he, List.map_cons, List.nodup_cons]
        refine ⟨fun hmem => ?_, ih h.2⟩
        rcases names_setEntry name node entries _ hmem with hname | hold
        · exact he hname
        · exact h.1 hold

theorem named_setEntry {name : ν} {node : Node ν β} {entries : List (ν × Node ν β)}
    (hnode : node.Named) (h : (dir entries).Named) : (dir (setEntry name node entries)).Named := by
  cases h with
  | dir hnodup hentries =>
      refine .dir (nodup_setEntry name node hnodup) fun e he => ?_
      have hentry := entry_of_mem (nodup_setEntry name node hnodup) he
      rw [entry_setEntry] at hentry
      by_cases hname : e.1 = name
      · rw [if_pos hname] at hentry
        exact Option.some.inj hentry ▸ hnode
      · rw [if_neg hname] at hentry
        exact hentries _ (mem_of_entry hentry)

theorem Named.child {node child : Node ν β} (h : node.Named) {name : ν}
    (hchild : node.child name = some child) : child.Named := by
  cases h with
  | file content => exact absurd hchild (by simp [Node.child])
  | dir hnodup hentries => exact hentries _ (mem_of_entry hchild)

/-! ## §3. Listings. -/

mutual

/-- Every path below this one, and what is there. -/
def listing (base : List ν) : Node ν β → List (List ν × Leaf β)
  | file content => [(base, .file content)]
  | dir entries => (base, .dir) :: listingEntries base entries

def listingEntries (base : List ν) : List (ν × Node ν β) → List (List ν × Leaf β)
  | [] => []
  | (name, node) :: entries => listing (base ++ [name]) node ++ listingEntries base entries

end

omit [DecidableEq ν] in
theorem listingEntries_eq (base : List ν) (entries : List (ν × Node ν β)) :
    listingEntries base entries = entries.flatMap fun e => listing (base ++ [e.1]) e.2 := by
  induction entries with
  | nil => rfl
  | cons e entries ih => rw [listingEntries, ih, List.flatMap_cons]

/-- **A listing has what the tree looks like at every path.** -/
theorem mem_listing {node : Node ν β} (h : node.Named) (base path : List ν) (leaf : Leaf β) :
    (path, leaf) ∈ listing base node ↔ ∃ rest, path = base ++ rest ∧ node.look rest = some leaf := by
  induction h generalizing base with
  | file content =>
      rw [listing, List.mem_singleton]
      constructor
      · intro hsame
        obtain ⟨rfl, rfl⟩ := Prod.mk.inj hsame
        exact ⟨[], (List.append_nil _).symm, rfl⟩
      · rintro ⟨rest, rfl, hlook⟩
        cases rest with
        | nil =>
            rw [List.append_nil]
            exact congrArg (Prod.mk base) (Option.some.inj hlook).symm
        | cons name rest => exact absurd hlook (by simp [look, child])
  | @dir entries hnodup hentries ih =>
      rw [listing, List.mem_cons, listingEntries_eq, List.mem_flatMap]
      constructor
      · rintro (hsame | ⟨e, he, hmem⟩)
        · obtain ⟨rfl, rfl⟩ := Prod.mk.inj hsame
          exact ⟨[], (List.append_nil _).symm, rfl⟩
        · obtain ⟨rest, rfl, hlook⟩ := (ih e he (base ++ [e.1])).mp hmem
          refine ⟨e.1 :: rest, by rw [List.append_assoc]; rfl, ?_⟩
          show (entry entries e.1).bind _ = _
          rw [entry_of_mem hnodup he]
          exact hlook
      · rintro ⟨rest, rfl, hlook⟩
        cases rest with
        | nil =>
            rw [List.append_nil]
            exact Or.inl (congrArg (Prod.mk base) (Option.some.inj hlook).symm)
        | cons name rest =>
            obtain ⟨node, hchild, hnode⟩ := Option.bind_eq_some_iff.mp hlook
            have hmem := mem_of_entry hchild
            refine Or.inr ⟨(name, node), hmem, (ih _ hmem (base ++ [name])).mpr ⟨rest, ?_, hnode⟩⟩
            rw [List.append_assoc]
            rfl

omit [DecidableEq ν] in
theorem prefix_of_mem_listing {node : Node ν β} (h : node.Named) {base path : List ν}
    {leaf : Leaf β} (hmem : (path, leaf) ∈ listing base node) : base <+: path := by
  classical
  obtain ⟨rest, rfl, _⟩ := (mem_listing h base path leaf).mp hmem
  exact List.prefix_append _ _

omit [DecidableEq ν] in
/-- **No path is listed twice.** -/
theorem nodup_listing {node : Node ν β} (h : node.Named) (base : List ν) :
    ((listing base node).map Prod.fst).Nodup := by
  induction h generalizing base with
  | file content => exact List.nodup_singleton base
  | @dir entries hnodup hentries ih =>
      rw [listing, List.map_cons, List.nodup_cons]
      have hbelow : ∀ {e : ν × Node ν β}, e ∈ entries → ∀ {path : List ν},
          path ∈ (listing (base ++ [e.1]) e.2).map Prod.fst → base ++ [e.1] <+: path := by
        intro e he path hpath
        obtain ⟨⟨path, leaf⟩, hmem, rfl⟩ := List.mem_map.mp hpath
        exact prefix_of_mem_listing (hentries e he) hmem
      constructor
      · intro hmem
        dsimp only at hmem
        rw [listingEntries_eq, List.map_flatMap, List.mem_flatMap] at hmem
        obtain ⟨e, he, hpath⟩ := hmem
        have hlength := (hbelow he hpath).length_le
        rw [List.length_append, List.length_singleton] at hlength
        omega
      · clear * - ih hnodup hbelow
        induction entries with
        | nil => exact List.nodup_nil
        | cons e entries ihentries =>
            rw [List.map_cons, List.nodup_cons] at hnodup
            rw [listingEntries, List.map_append, List.nodup_append]
            refine ⟨ih e List.mem_cons_self _, ihentries hnodup.2
              (fun e he => ih e (List.mem_cons_of_mem _ he))
              (fun he => hbelow (List.mem_cons_of_mem _ he)), ?_⟩
            rintro path hfirst other hother rfl
            -- a path below two entries has the names of both
            rw [listingEntries_eq, List.map_flatMap, List.mem_flatMap] at hother
            obtain ⟨e', he', hpath⟩ := hother
            have hone := hbelow List.mem_cons_self hfirst
            have htwo := hbelow (List.mem_cons_of_mem _ he') hpath
            have hsame := List.prefix_of_prefix_length_le hone htwo (by simp)
            have hname : e.1 = e'.1 := by
              have hall := hsame.eq_of_length (by simp)
              exact List.singleton_inj.mp (List.append_cancel_left hall)
            exact hnodup.1 (hname ▸ List.mem_map_of_mem he')

/-! ## §4. Creating directories. -/

/-- A directory and those above it, as far as they are missing. -/
def createDirAll : List ν → Node ν β → Option (Node ν β)
  | _, file _ => none
  | [], dir entries => some (dir entries)
  | name :: path, dir entries =>
      (createDirAll path ((entry entries name).getD (dir []))).map fun node =>
        dir (setEntry name node entries)

theorem look_cons (node : Node ν β) (name : ν) (path : List ν) :
    node.look (name :: path) = (node.child name).bind fun child => child.look path := rfl

theorem look_dir_nil (path : List ν) (hne : path ≠ []) :
    (dir [] : Node ν β).look path = none := by
  cases path with
  | nil => exact absurd rfl hne
  | cons name path => rfl

/-- **Only what is on the way is changed, and all of it is a directory.** -/
theorem look_createDirAll {path : List ν} {node node' : Node ν β}
    (h : createDirAll path node = some node') (other : List ν) :
    node'.look other = if other <+: path then some .dir else node.look other := by
  induction path generalizing node node' other with
  | nil =>
      cases node with
      | file content => exact absurd h (by simp [createDirAll])
      | dir entries =>
          obtain rfl := Option.some.inj h
          by_cases hother : other = []
          · subst hother
            rw [if_pos List.nil_prefix]
            rfl
          · rw [if_neg fun hbegins => hother (List.prefix_nil.mp hbegins)]
  | cons name path ih =>
      cases node with
      | file content => exact absurd h (by simp [createDirAll])
      | dir entries =>
          obtain ⟨below, hbelow, rfl⟩ := Option.map_eq_some_iff.mp h
          cases other with
          | nil =>
              rw [if_pos List.nil_prefix]
              rfl
          | cons first other =>
              rw [look_cons, look_cons]
              show (entry (setEntry name below entries) first).bind _ = _
              rw [entry_setEntry]
              by_cases hname : first = name
              · subst hname
                rw [if_pos rfl, Option.bind_some, ih hbelow]
                simp only [List.cons_prefix_cons, true_and]
                by_cases hbegins : other <+: path
                · rw [if_pos hbegins, if_pos hbegins]
                · rw [if_neg hbegins, if_neg hbegins]
                  show _ = (entry entries first).bind _
                  have hne : other ≠ [] := by
                    rintro rfl
                    exact hbegins List.nil_prefix
                  cases entry entries first with
                  | none => exact look_dir_nil other hne
                  | some node => rfl
              · rw [if_neg hname, if_neg]
                · rfl
                · simp only [List.cons_prefix_cons, hname, false_and, not_false_eq_true]

/-- **Directories can be created where nothing else is in the way.** -/
theorem createDirAll_isSome {path : List ν} {node : Node ν β}
    (h : ∀ above, above <+: path → ∀ leaf, node.look above = some leaf → leaf = .dir) :
    ∃ node', createDirAll path node = some node' := by
  induction path generalizing node with
  | nil =>
      cases node with
      | file content => exact absurd (h [] List.nil_prefix _ rfl) (by simp [leaf])
      | dir entries => exact ⟨_, rfl⟩
  | cons name path ih =>
      cases node with
      | file content => exact absurd (h [] List.nil_prefix _ rfl) (by simp [leaf])
      | dir entries =>
          have hbelow : ∀ above, above <+: path → ∀ leaf,
              ((entry entries name).getD (dir [])).look above = some leaf → leaf = .dir := by
            intro above hbegins leaf hlook
            cases hentry : entry entries name with
            | none =>
                rw [hentry] at hlook
                cases above with
                | nil => exact (Option.some.inj hlook).symm
                | cons first above => exact absurd hlook (by simp [look, child, entry])
            | some node =>
                rw [hentry] at hlook
                apply h (name :: above) ((List.prefix_cons_inj name).mpr hbegins)
                show (entry entries name).bind _ = _
                rw [hentry]
                exact hlook
          obtain ⟨node', hnode⟩ := ih hbelow
          exact ⟨_, by rw [createDirAll, hnode]; rfl⟩

omit [DecidableEq ν] in
theorem Named.empty : (Node.dir [] : Node ν β).Named := .dir List.nodup_nil nofun

theorem Named.createDirAll {path : List ν} {node node' : Node ν β} (hnamed : node.Named)
    (h : Node.createDirAll path node = some node') : node'.Named := by
  induction path generalizing node node' with
  | nil =>
      cases node with
      | file content => exact absurd h (by simp [Node.createDirAll])
      | dir entries => exact Option.some.inj h ▸ hnamed
  | cons name path ih =>
      cases node with
      | file content => exact absurd h (by simp [Node.createDirAll])
      | dir entries =>
          obtain ⟨below, hbelow, rfl⟩ := Option.map_eq_some_iff.mp h
          refine named_setEntry (ih ?_ hbelow) hnamed
          cases hentry : entry entries name with
          | none => exact .empty
          | some node => exact hnamed.child hentry

/-! ## §5. Writing files. -/

/-- Write a file into a directory that is there. -/
def writeFile : List ν → β → Node ν β → Option (Node ν β)
  | _, _, file _ => none
  | [], _, dir _ => none
  | [name], content, dir entries =>
      match entry entries name with
      | some (dir _) => none
      | _ => some (dir (setEntry name (file content) entries))
  | name :: next :: path, content, dir entries =>
      (entry entries name).bind fun node =>
        (writeFile (next :: path) content node).map fun node => dir (setEntry name node entries)

theorem writeFile_nil (content : β) (node : Node ν β) : writeFile [] content node = none := by
  cases node with
  | file content => rfl
  | dir entries => rfl

/-- **Only the file itself is changed.** -/
theorem look_writeFile {path : List ν} {content : β} {node node' : Node ν β}
    (h : writeFile path content node = some node') (other : List ν) :
    node'.look other = if other = path then some (.file content) else node.look other := by
  induction path generalizing node node' other with
  | nil => exact absurd h (by simp [writeFile_nil])
  | cons name path ih =>
      cases node with
      | file old => exact absurd h (by simp [writeFile])
      | dir entries =>
          cases path with
          | nil =>
              unfold writeFile at h
              split at h
              next => exact absurd h (by simp)
              next hfree =>
                obtain rfl := Option.some.inj h
                cases other with
                | nil => rw [if_neg (by simp)]; rfl
                | cons first other =>
                    rw [look_cons, look_cons]
                    show (entry (setEntry name (file content) entries) first).bind _ = _
                    rw [entry_setEntry]
                    by_cases hname : first = name
                    · subst hname
                      rw [if_pos rfl, Option.bind_some]
                      cases other with
                      | nil => rw [if_pos rfl]; rfl
                      | cons second other =>
                          rw [if_neg (by simp)]
                          -- there was no directory in the place of the file
                          show none = (entry entries first).bind _
                          cases hentry : entry entries first with
                          | none => rfl
                          | some old =>
                              cases old with
                              | file old => rfl
                              | dir old => exact absurd hentry (hfree old)
                    · rw [if_neg hname, if_neg (by simp [hname])]
                      rfl
          | cons next path =>
              unfold writeFile at h
              obtain ⟨node, hentry, h⟩ := Option.bind_eq_some_iff.mp h
              obtain ⟨below, hbelow, rfl⟩ := Option.map_eq_some_iff.mp h
              cases other with
              | nil => rw [if_neg (by simp)]; rfl
              | cons first other =>
                  rw [look_cons, look_cons]
                  show (entry (setEntry name below entries) first).bind _ = _
                  rw [entry_setEntry]
                  by_cases hname : first = name
                  · subst hname
                    rw [if_pos rfl, Option.bind_some, ih hbelow]
                    show _ = if _ then _ else (entry entries first).bind _
                    rw [hentry, Option.bind_some]
                    simp only [List.cons.injEq, true_and]
                  · rw [if_neg hname, if_neg (by simp [hname])]
                    rfl

/-- **A file can be written into a directory, where no directory is in the way.** -/
theorem writeFile_isSome {path : List ν} {node : Node ν β} (content : β) (hne : path ≠ [])
    (hparent : node.look path.dropLast = some .dir) (hfree : node.look path ≠ some .dir) :
    ∃ node', writeFile path content node = some node' := by
  induction path generalizing node with
  | nil => exact absurd rfl hne
  | cons name path ih =>
      cases node with
      | file old =>
          cases path with
          | nil => exact absurd (Option.some.inj hparent) (by simp [leaf])
          | cons next path => exact absurd hparent (by simp [look, child])
      | dir entries =>
          cases path with
          | nil =>
              unfold writeFile
              split
              next old hentry =>
                exfalso
                apply hfree
                show (entry entries name).bind _ = _
                rw [hentry]
                rfl
              next => exact ⟨_, rfl⟩
          | cons next path =>
              rw [List.dropLast_cons_of_ne_nil (List.cons_ne_nil _ _), look_cons] at hparent
              obtain ⟨node, hentry, hlook⟩ := Option.bind_eq_some_iff.mp hparent
              have hentry : entry entries name = some node := hentry
              have hbelow : node.look (next :: path) ≠ some .dir := by
                intro hdir
                apply hfree
                show (entry entries name).bind _ = _
                rw [hentry]
                exact hdir
              obtain ⟨node', hnode⟩ := ih (List.cons_ne_nil _ _) hlook hbelow
              refine ⟨dir (setEntry name node' entries), ?_⟩
              rw [writeFile, hentry, Option.bind_some, hnode]
              rfl

theorem Named.writeFile {path : List ν} {content : β} {node node' : Node ν β}
    (hnamed : node.Named) (h : Node.writeFile path content node = some node') : node'.Named := by
  induction path generalizing node node' with
  | nil => exact absurd h (by simp [writeFile_nil])
  | cons name path ih =>
      cases node with
      | file old => exact absurd h (by simp [Node.writeFile])
      | dir entries =>
          cases path with
          | nil =>
              unfold Node.writeFile at h
              split at h
              next => exact absurd h (by simp)
              next => exact Option.some.inj h ▸ named_setEntry (.file content) hnamed
          | cons next path =>
              unfold Node.writeFile at h
              obtain ⟨node, hentry, h⟩ := Option.bind_eq_some_iff.mp h
              obtain ⟨below, hbelow, rfl⟩ := Option.map_eq_some_iff.mp h
              exact named_setEntry (ih (hnamed.child hentry) hbelow) hnamed

/-- What is above a path that is there is a directory. -/
theorem look_above {node : Node ν β} {path : List ν} {leaf : Leaf β}
    (h : node.look path = some leaf) {above : List ν} (hbegins : above <+: path)
    (hne : above ≠ path) : node.look above = some .dir := by
  induction path generalizing node above with
  | nil => exact absurd (List.prefix_nil.mp hbegins) hne
  | cons name path ih =>
      cases node with
      | file content => exact absurd h (by simp [look, child])
      | dir entries =>
          cases above with
          | nil => rfl
          | cons first above =>
              obtain ⟨rfl, hbelow⟩ := List.cons_prefix_cons.mp hbegins
              obtain ⟨node, hentry, hlook⟩ := Option.bind_eq_some_iff.mp h
              rw [look_cons, hentry, Option.bind_some]
              exact ih hlook hbelow fun hsame => hne (hsame ▸ rfl)

/-! ## §6. Removing an entry of the root. -/

def removeEntry (name : ν) : Node ν β → Node ν β
  | file content => file content
  | dir entries => dir (entries.filter fun e => e.1 ≠ name)

theorem Named.removeEntry {node : Node ν β} (h : node.Named) (name : ν) :
    (node.removeEntry name).Named := by
  cases h with
  | file content => exact .file content
  | dir hnodup hentries =>
      refine .dir (hnodup.sublist (List.filter_sublist.map _)) fun e he => ?_
      exact hentries e (List.mem_of_mem_filter he)

end Node

end QingzhouSSH.Lib.FileTree
