/-
  QingzhouSSH.Core.DataMigration.Retry — copies that are finished by a later one.

  A copy that has failed leaves a target with some of the entries of its source.  On a disk
  that does whatever its trees allow, a retry copies the rest and verifies the whole.

  Main results:
    * `shouldCopyFile_works` — a file is copied exactly where the target has not its entry;
    * `copyAndVerify_works` — a copy on a working disk comes to its end;
    * `retry_converges` — a retry finishes the copy, wherever it has stopped.
-/
import QingzhouSSH.Core.DataMigration.Copy

namespace QingzhouSSH.Core.DataMigration

open QingzhouSSH.Lib.FileTree
open QingzhouSSH.Lib.Process

variable {ν : Type}

/-! ## §1. Copies on a working disk. -/

section Works

variable [OsName ν] {sha256 : Bytes → Text} {request : CopyAndVerifyRequest ν}
  {w₀ w w' : Disk ν}

theorem Improves.trans (h : Improves w₀ w) (h' : Improves w w') : Improves w₀ w' where
  sourceNamed := h'.sourceNamed
  targetNamed := h'.targetNamed
  source path hpath := (h'.source path hpath).trans (h.source path hpath)
  target path hpath := by
    rcases h'.target path hpath with hsame | ⟨leaf, hsource, hleaf⟩
    · rw [hsame]
      exact h.target path hpath
    · exact Or.inr ⟨leaf, h.source path hpath ▸ hsource, hleaf⟩
  sourceJournal := h'.sourceJournal
  targetJournal := h'.targetJournal

/-- The target has the entry of the source. -/
def Agrees (sha256 : Bytes → Text) (w : Disk ν) (path : List ν) : Prop :=
  (w.target.look path).map (entryOf sha256 path) = (w.source.look path).map (entryOf sha256 path)

theorem Agrees.step {path : List ν} (hagrees : Agrees sha256 w path) (h : Improves w w')
    (hpath : path ≠ journalPath) : Agrees sha256 w' path := by
  unfold Agrees at hagrees ⊢
  rw [h.source path hpath]
  rcases h.target path hpath with hsame | ⟨leaf, hsource, hleaf⟩
  · rw [hsame]
    exact hagrees
  · rw [hleaf, hsource]

/-- A copy under way: its counters, and the entries it has dealt with. -/
structure Copying (sha256 : Bytes → Text) (request : CopyAndVerifyRequest ν) (w₀ : Disk ν)
    (finished : List (DataMigrationManifestEntry ν)) (journal : DataMigrationJournal)
    (w : Disk ν) : Prop where
  improves : Improves w₀ w
  valid : journal.validate request.store.isAbsolute = .ok ()
  files : journal.copiedFiles
    = min (finished.filter fun entry => entry.kind = .file).length (2 ^ 64 - 1)
  bytes : journal.copiedBytes
    = min (finished.map fun entry => entry.sizeBytes).sum (2 ^ 64 - 1)
  finished : ∀ entry ∈ finished, Migrated entry.relativePath
    ∧ Agrees sha256 w entry.relativePath
  written : ∀ path ∈ w.written, ¬ Agrees sha256 w₀ path

/-- A step that leaves the journal and copies no file. -/
theorem Copying.step {finished : List (DataMigrationManifestEntry ν)}
    {journal : DataMigrationJournal} (h : Copying sha256 request w₀ finished journal w)
    (himproves : Improves w w') (hwritten : ∀ path ∈ w'.written, ¬ Agrees sha256 w₀ path) :
    Copying sha256 request w₀ finished journal w' where
  improves := h.improves.trans himproves
  valid := h.valid
  files := h.files
  bytes := h.bytes
  finished entry hentry :=
    ⟨(h.finished entry hentry).1,
      (h.finished entry hentry).2.step himproves (h.finished entry hentry).1.ne_journal⟩
  written := hwritten

theorem Copying.transition {finished : List (DataMigrationManifestEntry ν)}
    {journal : DataMigrationJournal} (h : Copying sha256 request w₀ finished journal w)
    (phase : DataMigrationPhase) (now : Int) :
    Copying sha256 request w₀ finished (journal.transition phase now) w where
  improves := h.improves
  valid := h.valid
  files := h.files
  bytes := h.bytes
  finished := h.finished
  written := h.written

/-- What a question is answered, whatever the time. -/
theorem keeps_work {α : Type} {question : CopyQuestion ν}
    {result : CopyAnswer question → AppResult α} {journal : DataMigrationJournal}
    {Q : AppResult α → DataMigrationJournal → Disk ν → Prop}
    (h : ∀ time, Q (result (work sha256 request time question w).1) journal
      (work sha256 request time question w).2) :
    Keeps (Works sha256 request) (fun _ _ => True) Q (attempt question result).run journal w := by
  refine ⟨trivial, fun answer w' hworks => ?_⟩
  obtain ⟨time, hwork⟩ := hworks
  have hresult := h time
  rw [hwork] at hresult
  exact ⟨trivial, hresult⟩

omit [OsName ν] in
/-- A part that succeeds, and what comes behind it. -/
theorem keeps_next {α β : Type} {p : CopyProcess ν β} {f : β → CopyProcess ν α}
    {R : (question : CopyQuestion ν) → Disk ν → CopyAnswer question → Disk ν → Prop}
    {Q : AppResult α → DataMigrationJournal → Disk ν → Prop}
    {P : β → DataMigrationJournal → Disk ν → Prop} {journal : DataMigrationJournal}
    (hp : Keeps R (fun _ _ => True) (fun r j w' => ∃ b, r = .ok b ∧ P b j w') p.run journal w)
    (hf : ∀ b j w', P b j w' → Keeps R (fun _ _ => True) Q (f b).run j w') :
    Keeps R (fun _ _ => True) Q (p >>= f : CopyProcess ν α).run journal w := by
  refine keeps_andThen (hp.imp fun r j w' _ hr => ?_)
  obtain ⟨b, rfl, hb⟩ := hr
  exact hf b j w' hb

omit [OsName ν] in
theorem perform_some {effect : Option (Node ν Bytes)} {tree tree' : Node ν Bytes}
    (h : effect = some tree') : perform effect tree = (.ok (), tree') := by
  rw [h]
  rfl

theorem work_hashFile {time : Int} {path : List ν} {content : Bytes}
    (h : w.target.look path = some (.file content)) :
    work sha256 request time (.hashFile path) w = (.ok (hashFile sha256 content), w) := by
  simp only [work, h]

theorem work_copyFileAtomic {time : Int} {path : List ν} {content : Bytes}
    {target : Node ν Bytes} (hsource : w.source.look path = some (.file content))
    (hwrite : w.target.writeFile path content = some target) :
    work sha256 request time (.copyFileAtomic path) w
      = (.ok (), { w with target := target, written := path :: w.written }) := by
  simp only [work, hsource, hwrite]

/-- What an operation on the trees leaves behind. -/
def Changed (journal : DataMigrationJournal) (w : Disk ν) (result : AppResult Unit)
    (journal' : DataMigrationJournal) (w' : Disk ν) : Prop :=
  result = .ok () ∧ journal' = journal ∧ Improves w w' ∧ w'.written = w.written

theorem saveSource_works (h : Started w) (journal : DataMigrationJournal) (payload : Bytes) :
    Keeps (Works sha256 request) (fun _ _ => True) (Changed journal w)
      (attempt (.saveSource payload) id : CopyProcess ν Unit).run journal w := by
  obtain ⟨source, hwrite⟩ :=
    Node.writeFile_isSome payload journalPath_ne_nil h.sourceRoot h.sourceJournal
  refine keeps_work fun time => ?_
  show Changed journal w (perform _ w.source).1 journal
    { w with source := (perform _ w.source).2 }
  rw [perform_some hwrite]
  exact ⟨rfl, rfl, h.improves.savedSource hwrite, rfl⟩

theorem saveTarget_works (h : Started w) (journal : DataMigrationJournal) (payload : Bytes) :
    Keeps (Works sha256 request) (fun _ _ => True) (Changed journal w)
      (attempt (.saveTarget payload) id : CopyProcess ν Unit).run journal w := by
  obtain ⟨target, hwrite⟩ :=
    Node.writeFile_isSome payload journalPath_ne_nil h.targetRoot h.targetJournal
  refine keeps_work fun time => ?_
  show Changed journal w (perform _ w.target).1 journal
    { w with target := (perform _ w.target).2 }
  rw [perform_some hwrite]
  exact ⟨rfl, rfl, h.improves.savedTarget hwrite, rfl⟩

/-- No file of the target is where the source has a directory. -/
theorem Started.dir_of_look (h : Started w) {path : List ν} {leaf : Leaf Bytes}
    (hsource : w.source.look path = some .dir) (hplain : ¬ journalPath <+: path)
    (hmigrated : path ≠ [] → Migrated path) (hlook : w.target.look path = some leaf) :
    leaf = .dir := by
  by_cases hroot : path = []
  · subst hroot
    rw [h.targetRoot] at hlook
    exact (Option.some.inj hlook).symm
  · obtain ⟨leaf', hlook', hkind⟩ := h.within path leaf (hmigrated hroot) hlook
    rw [hsource] at hlook'
    obtain rfl := Option.some.inj hlook'
    cases leaf with
    | file content => exact absurd hkind (by simp [kindOf])
    | dir => rfl

/-- **A directory of the source can be created.** -/
theorem createDirAll_works (h : Started w) (journal : DataMigrationJournal) {path : List ν}
    (hsource : w.source.look path = some .dir) (hmigrated : path ≠ [] → Migrated path) :
    Keeps (Works sha256 request) (fun _ _ => True)
      (fun r journal' w' => Changed journal w r journal' w' ∧ w'.target.look path = some .dir)
      (attempt (.createDirAll path) id : CopyProcess ν Unit).run journal w := by
  have hplain : ¬ journalPath <+: path := by
    intro hjournal
    have hne : path ≠ [] := by
      rintro rfl
      exact journalPath_ne_nil (List.prefix_nil.mp hjournal)
    exact (hmigrated hne).not_journal hjournal
  have hfree : ∀ above, above <+: path → ∀ leaf, w.target.look above = some leaf →
      leaf = .dir := by
    intro above habove leaf hlook
    have hdir : w.source.look above = some .dir := by
      by_cases hsame : above = path
      · rw [hsame, hsource]
      · exact Node.look_above hsource habove hsame
    refine h.dir_of_look hdir (fun hjournal => hplain (hjournal.trans habove)) ?_ hlook
    -- a path above a migrated one begins with the same name
    intro hne
    obtain ⟨rest, rfl⟩ := habove
    cases above with
    | nil => exact absurd rfl hne
    | cons name above =>
        obtain ⟨other, hother, hfile⟩ := hmigrated (List.cons_ne_nil _ _)
        exact ⟨other, hother, hfile⟩
  obtain ⟨target, hcreate⟩ := Node.createDirAll_isSome hfree
  refine keeps_work fun time => ?_
  show Changed journal w (perform _ w.target).1 journal
    { w with target := (perform _ w.target).2 } ∧ (perform _ w.target).2.look path = some .dir
  rw [perform_some hcreate]
  refine ⟨⟨rfl, rfl, h.improves.created hsource hplain hcreate, rfl⟩, ?_⟩
  rw [Node.look_createDirAll hcreate, if_pos (List.prefix_refl _)]

/-- **The journal can be saved.** -/
theorem save_works {finished : List (DataMigrationManifestEntry ν)}
    {journal : DataMigrationJournal} (hstarted : Started w₀)
    (h : Copying sha256 request w₀ finished journal w) :
    Keeps (Works sha256 request) (fun _ _ => True)
      (fun r journal' w' => ∃ u, r = .ok u
        ∧ Copying sha256 request w₀ finished journal' w')
      (save request.store : CopyProcess ν Unit).run journal w := by
  have hhere := hstarted.of_improves h.improves
  refine keeps_next (P := fun found j w' => found = journal ∧ j = journal ∧ w' = w)
    ⟨trivial, trivial, journal, rfl, rfl, rfl, rfl⟩ fun found j w' hfound => ?_
  rw [hfound.1, hfound.2.1, hfound.2.2]
  refine keeps_next (P := fun _ j w' => j = journal ∧ w' = w)
    ⟨trivial, (), h.valid, rfl, rfl⟩ fun _ j w' hvalid => ?_
  rw [hvalid.1, hvalid.2]
  refine keeps_next (P := fun _ => Changed journal w (.ok ()))
    ((saveSource_works hhere journal _).imp fun r j w' _ hr => ⟨(), hr.1, rfl, hr.2⟩)
    fun _ j w₁ hsource => ?_
  obtain ⟨_, hj, himproves, hwritten⟩ := hsource
  rw [hj]
  have hcopying := h.step himproves (by rw [hwritten]; exact h.written)
  refine ⟨trivial, fun targetExists w₂ hworks => ?_⟩
  obtain ⟨time, hwork⟩ := hworks
  obtain ⟨rfl, rfl⟩ := Prod.mk.inj hwork
  refine (saveTarget_works (hstarted.of_improves hcopying.improves) journal _).imp
    fun r j w' _ hr => ?_
  obtain ⟨rfl, rfl, himproves', hwritten'⟩ := hr
  exact ⟨(), rfl, hcopying.step himproves' (by rw [hwritten', hwritten]; exact h.written)⟩

/-- The copy enters its next phase. -/
theorem transition_works {finished : List (DataMigrationManifestEntry ν)}
    {journal : DataMigrationJournal} {phase : DataMigrationPhase} (hstarted : Started w₀)
    (h : Copying sha256 request w₀ finished journal w) :
    Keeps (Works sha256 request) (fun _ _ => True)
      (fun r journal' w' => ∃ u, r = .ok u
        ∧ Copying sha256 request w₀ finished journal' w')
      (transition request.store phase : CopyProcess ν Unit).run journal w := by
  refine ⟨trivial, fun now w' hworks => ?_⟩
  obtain ⟨time, hwork⟩ := hworks
  obtain ⟨rfl, rfl⟩ := Prod.mk.inj hwork
  exact ⟨trivial, save_works hstarted (h.transition phase time)⟩

/-- **A file is copied exactly where the target has not its entry.** -/
theorem shouldCopyFile_works (h : Started w) {journal : DataMigrationJournal} {path : List ν}
    {content : Bytes} (hmigrated : Migrated path)
    (hsource : w.source.look path = some (.file content)) :
    Keeps (Works sha256 request) (fun _ _ => True)
      (fun r journal' w' => ∃ copies, r = .ok copies
        ∧ (copies = true ↔ ¬ Agrees sha256 w path) ∧ journal' = journal ∧ w' = w)
      (shouldCopyFile (entryOf sha256 path (.file content)) true).run journal w := by
  refine ⟨trivial, fun found w' hworks => ?_⟩
  obtain ⟨time, hwork⟩ := hworks
  obtain ⟨rfl, rfl⟩ := Prod.mk.inj hwork
  unfold Agrees
  rw [hsource]
  show Keeps _ _ _ (ExceptT.run (if !(w.target.look path).isSome then _ else _)) journal w
  cases hlook : w.target.look path with
  | none =>
      refine ⟨trivial, true, rfl, ?_, rfl, rfl⟩
      simp
  | some leaf =>
      obtain ⟨leaf', hlook', hkind⟩ := h.within path leaf hmigrated hlook
      rw [hsource] at hlook'
      obtain rfl := Option.some.inj hlook'
      cases leaf with
      | dir => exact absurd hkind (by simp [kindOf])
      | file old =>
          refine keeps_next (P := fun hashed j w' =>
            hashed = hashFile sha256 old ∧ j = journal ∧ w' = w) ?_ fun hashed j w' hhashed => ?_
          · refine keeps_work fun time => ?_
            show ∃ hashed, (work sha256 request time (.hashFile path) w).1 = .ok hashed ∧ _ ∧ _
              ∧ (work sha256 request time (.hashFile path) w).2 = w
            rw [work_hashFile hlook]
            exact ⟨_, rfl, rfl, rfl, rfl⟩
          · rw [hhashed.1, hhashed.2.1, hhashed.2.2]
            refine ⟨trivial, _, rfl, ?_, rfl, rfl⟩
            rw [decide_eq_true_eq, Option.map_some, Option.map_some, Option.some_inj]
            unfold entryOf
            simp only [DataMigrationManifestEntry.mk.injEq, Option.some_inj, true_and, ne_eq,
              not_and_or]

/-- **A file of the source is copied, or found as it should be.** -/
theorem copyFile_works (h : Started w) {journal : DataMigrationJournal} {path : List ν}
    {content : Bytes} (hmigrated : Migrated path)
    (hsource : w.source.look path = some (.file content)) :
    Keeps (Works sha256 request) (fun _ _ => True)
      (fun r journal' w' => r = .ok () ∧ journal' = journal ∧ Improves w w'
        ∧ Agrees sha256 w' path
        ∧ (w'.written = w.written
          ∨ (w'.written = path :: w.written ∧ ¬ Agrees sha256 w path)))
      (copyFile (entryOf sha256 path (.file content)) true).run journal w := by
  refine keeps_next (P := fun copies j w' =>
    (copies = true ↔ ¬ Agrees sha256 w path) ∧ j = journal ∧ w' = w)
    (shouldCopyFile_works h hmigrated hsource) fun copies j w' hshould => ?_
  obtain ⟨hcopies, hj, hw⟩ := hshould
  rw [hj, hw]
  cases copies with
  | false =>
      have hagrees : Agrees sha256 w path := by
        by_contra hdiffers
        exact Bool.false_ne_true (hcopies.mpr hdiffers)
      exact ⟨trivial, rfl, rfl, h.improves, hagrees, Or.inl rfl⟩
  | true =>
      have hdiffers := hcopies.mp rfl
      obtain ⟨name, hname, hfile⟩ := id hmigrated
      have hne : path ≠ [] := by
        rintro rfl
        exact absurd hname (by simp)
      have hshorter : path.dropLast ≠ path := by
        intro hsame
        have hlength := congrArg List.length hsame
        rw [List.length_dropLast] at hlength
        have hpos := List.length_pos_of_ne_nil hne
        omega
      have hparent := Node.look_above hsource (List.dropLast_prefix path) hshorter
      refine keeps_next (P := fun _ j w' => Changed journal w (.ok ()) j w'
          ∧ w'.target.look path.dropLast = some .dir)
        ((createDirAll_works h journal hparent fun hne' => ?_).imp fun r j w' _ hr =>
          ⟨(), hr.1.1, ⟨rfl, hr.1.2⟩, hr.2⟩) fun _ j w₁ hcreated => ?_
      · cases path with
        | nil => exact absurd rfl hne
        | cons first rest =>
            cases rest with
            | nil => exact absurd rfl hne'
            | cons second rest => exact ⟨name, hname, hfile⟩
      · obtain ⟨⟨_, hj, himproves, hwritten⟩, hdir⟩ := hcreated
        rw [hj]
        have hhere := h.of_improves himproves
        have hsource' : w₁.source.look path = some (.file content) := by
          rw [himproves.source path hmigrated.ne_journal, hsource]
        have hfree : w₁.target.look path ≠ some .dir := by
          intro hlook
          obtain ⟨leaf, hleaf, hkind⟩ := hhere.within path .dir hmigrated hlook
          rw [hsource'] at hleaf
          obtain rfl := Option.some.inj hleaf
          exact absurd hkind (by simp [kindOf])
        obtain ⟨target, hwrite⟩ := Node.writeFile_isSome content hne hdir hfree
        show Keeps _ _ _ (attempt (.copyFileAtomic path) id : CopyProcess ν Unit).run journal w₁
        refine keeps_work fun time => ?_
        rw [work_copyFileAtomic hsource' hwrite]
        refine ⟨rfl, rfl, himproves.trans
          (hhere.improves.copied hmigrated.ne_journal hsource' hwrite _), ?_,
          Or.inr ⟨congrArg (path :: ·) hwritten, hdiffers⟩⟩
        show (target.look path).map _ = (w₁.source.look path).map _
        rw [Node.look_writeFile hwrite, if_pos rfl, hsource']

section Entries

variable {finished : List (DataMigrationManifestEntry ν)} {journal : DataMigrationJournal}
  {path : List ν}

theorem Copying.addDirectory (h : Copying sha256 request w₀ finished journal w)
    (hmigrated : Migrated path) (hagrees : Agrees sha256 w path) :
    Copying sha256 request w₀ (finished ++ [entryOf sha256 path .dir]) journal w where
  improves := h.improves
  valid := h.valid
  files := by
    rw [List.filter_append, List.filter_singleton]
    simpa [entryOf] using h.files
  bytes := by
    rw [List.map_append, List.sum_append]
    simpa [entryOf] using h.bytes
  finished entry hentry := by
    rcases List.mem_append.mp hentry with hold | hnew
    · exact h.finished entry hold
    · obtain rfl := List.mem_singleton.mp hnew
      exact ⟨hmigrated, hagrees⟩
  written := h.written

theorem Copying.addFile (h : Copying sha256 request w₀ finished journal w) {content : Bytes}
    (hmigrated : Migrated path) (hagrees : Agrees sha256 w path) (now : Int) :
    Copying sha256 request w₀ (finished ++ [entryOf sha256 path (.file content)])
      (journal.copied (entryOf sha256 path (.file content)).sizeBytes now) w where
  improves := h.improves
  valid := h.valid
  files := by
    have hfiles := h.files
    show min (journal.copiedFiles + 1) (2 ^ 64 - 1) = _
    rw [List.filter_append, List.length_append, hfiles]
    show _ = min (_ + 1) (2 ^ 64 - 1)
    omega
  bytes := by
    have hbytes := h.bytes
    show min (journal.copiedBytes + _) (2 ^ 64 - 1) = _
    rw [List.map_append, List.sum_append, List.map_singleton, List.sum_singleton, hbytes]
    omega
  finished entry hentry := by
    rcases List.mem_append.mp hentry with hold | hnew
    · exact h.finished entry hold
    · obtain rfl := List.mem_singleton.mp hnew
      exact ⟨hmigrated, hagrees⟩
  written := h.written

/-- **One entry.** -/
theorem copyEntry_works (hstarted : Started w₀)
    (h : Copying sha256 request w₀ finished journal w) {leaf : Leaf Bytes}
    (hmigrated : Migrated path) (hsource : w₀.source.look path = some leaf) :
    Keeps (Works sha256 request) (fun _ _ => True)
      (fun r journal' w' => ∃ u, r = .ok u
        ∧ Copying sha256 request w₀ (finished ++ [entryOf sha256 path leaf]) journal' w')
      (copyEntry request.store true (entryOf sha256 path leaf)).run journal w := by
  have hhere := hstarted.of_improves h.improves
  rw [← h.improves.source path hmigrated.ne_journal] at hsource
  cases leaf with
  | dir =>
      refine (createDirAll_works hhere journal hsource fun _ => hmigrated).imp
        fun r j w' _ hr => ?_
      obtain ⟨⟨rfl, rfl, himproves, hwritten⟩, hdir⟩ := hr
      have hcopying := h.step himproves (by rw [hwritten]; exact h.written)
      refine ⟨(), rfl, hcopying.addDirectory hmigrated ?_⟩
      unfold Agrees
      rw [hdir, himproves.source path hmigrated.ne_journal, hsource]
  | file content =>
      refine keeps_next (P := fun _ j w' => j = journal ∧ Improves w w' ∧ Agrees sha256 w' path
          ∧ (w'.written = w.written
            ∨ (w'.written = path :: w.written ∧ ¬ Agrees sha256 w path)))
        ((copyFile_works hhere hmigrated hsource).imp fun r j w' _ hr => ⟨(), hr⟩)
        fun _ j w₁ hcopied => ?_
      obtain ⟨hj, himproves, hagrees, hwritten⟩ := hcopied
      rw [hj]
      have hcopying : Copying sha256 request w₀ finished journal w₁ := by
        refine h.step himproves fun other hother => ?_
        rcases hwritten with hwritten | ⟨hwritten, hdiffers⟩
        · exact h.written other (hwritten ▸ hother)
        · rw [hwritten] at hother
          rcases List.mem_cons.mp hother with rfl | hother
          · -- what agrees at the beginning agrees ever after
            intro hfirst
            exact hdiffers (hfirst.step h.improves hmigrated.ne_journal)
          · exact h.written other hother
      refine ⟨trivial, fun now w₂ hworks => ?_⟩
      obtain ⟨time, hwork⟩ := hworks
      obtain ⟨rfl, rfl⟩ := Prod.mk.inj hwork
      exact ⟨trivial, save_works hstarted (hcopying.addFile hmigrated hagrees time)⟩

/-- **The entries, one after the other.** -/
theorem copyEntries_works (hstarted : Started w₀) {rest : List (DataMigrationManifestEntry ν)}
    (hrest : ∀ entry ∈ rest, ∃ path leaf, Migrated path ∧ w₀.source.look path = some leaf
      ∧ entry = entryOf sha256 path leaf)
    (h : Copying sha256 request w₀ finished journal w) :
    Keeps (Works sha256 request) (fun _ _ => True)
      (fun r journal' w' => ∃ u, r = .ok u
        ∧ Copying sha256 request w₀ (finished ++ rest) journal' w')
      (copyEntries request.store true rest).run journal w := by
  induction rest generalizing finished journal w with
  | nil => exact ⟨trivial, (), rfl, by rw [List.append_nil]; exact h⟩
  | cons entry rest ih =>
      obtain ⟨⟨path, leaf, hmigrated, hlook, rfl⟩, hothers⟩ := List.forall_mem_cons.mp hrest
      refine keeps_next (copyEntry_works hstarted h hmigrated hlook) fun _ j w' hcopying => ?_
      have hall := ih hothers hcopying
      rw [List.append_assoc] at hall
      exact hall

end Entries

/-- **Once every entry has been dealt with, the trees agree.** -/
theorem Copying.agrees {environment : MigrationEnvironment ν} {root : List ν}
    {manifest : DataMigrationManifest ν} {journal : DataMigrationJournal}
    (hstarted : Started w₀)
    (hsource : scanManifest sha256 environment root w₀.source = .ok manifest)
    (h : Copying sha256 request w₀ manifest.entries journal w) (path : List ν)
    (hmigrated : Migrated path) : Agrees sha256 w path := by
  cases hlook : w₀.source.look path with
  | some leaf =>
      have hmem := (mem_scanManifest hsource hstarted.sourceNamed _).mpr
        ⟨path, leaf, hmigrated, hlook, rfl⟩
      have hagrees := (h.finished _ hmem).2
      rw [entryOf_path] at hagrees
      exact hagrees
  | none =>
      have hnone : w.source.look path = none := by
        rw [h.improves.source path hmigrated.ne_journal, hlook]
      unfold Agrees
      rw [hnone]
      cases htarget : w.target.look path with
      | none => rfl
      | some leaf =>
          obtain ⟨leaf', hleaf, _⟩ :=
            (hstarted.of_improves h.improves).within path leaf hmigrated htarget
          rw [hnone] at hleaf
          exact absurd hleaf (by simp)

/-- **A copy on a working disk comes to its end.** -/
theorem copyAndVerify_works {environment : MigrationEnvironment ν} {root : List ν}
    {journal : DataMigrationJournal} (hregular : request.environment.Regular)
    (hretryable : request.retryable = true) (hstarted : Started w₀)
    (hsource : scanManifest sha256 environment root w₀.source = .ok request.manifest)
    (h : Copying sha256 request w₀ [] journal w₀) :
    Keeps (Works sha256 request) (fun _ _ => True)
      (fun r journal' w' => (∃ verified, r = .ok verified)
        ∧ Copying sha256 request w₀ request.manifest.entries journal' w'
        ∧ scanManifest sha256 request.environment request.target w'.target
          = .ok request.manifest)
      (copyAndVerify request) journal w₀ := by
  have hscan : ∀ {w}, Started w → ∃ existing,
      scanManifest sha256 request.environment request.target w.target = .ok existing :=
    fun hhere => scanManifest_isOk hregular hhere.targetRoot hhere.targetAllowed
  suffices hinner : Keeps (Works sha256 request) (fun _ _ => True)
      (fun r journal' w' => ∃ verified, r = .ok verified
        ∧ Copying sha256 request w₀ request.manifest.entries journal' w'
        ∧ scanManifest sha256 request.environment request.target w'.target
          = .ok request.manifest)
      (copyAndVerifyInner request).run journal w₀ by
    refine keeps_bind (hinner.imp fun r journal' w' _ hr => ?_)
    obtain ⟨verified, rfl, hcopying, hverified⟩ := hr
    exact ⟨trivial, ⟨verified, rfl⟩, hcopying, hverified⟩
  obtain ⟨existing, hexisting⟩ := hscan hstarted
  refine keeps_next (P := fun found j w => found = existing ∧ j = journal ∧ w = w₀)
    (keeps_work fun time => ⟨existing, hexisting, rfl, rfl, rfl⟩) fun found j w hfound => ?_
  rw [hfound.1, hfound.2.1, hfound.2.2]
  refine keeps_next (P := fun _ j w => j = journal ∧ w = w₀) ⟨trivial, (), ?_, rfl, rfl⟩
    fun _ j w haccepted => ?_
  · rw [hretryable]
    exact hstarted.validate hsource hexisting
  rw [haccepted.1, haccepted.2]
  refine keeps_next (transition_works hstarted h) fun _ j w hcopying => ?_
  rw [hretryable]
  refine keeps_next (copyEntries_works hstarted
    (fun entry hentry => (mem_scanManifest hsource hstarted.sourceNamed entry).mp hentry)
    hcopying) fun _ j w hcopying => ?_
  rw [List.nil_append] at hcopying
  refine keeps_next (transition_works hstarted hcopying) fun _ j w hcopying => ?_
  have hhere := hstarted.of_improves hcopying.improves
  refine keeps_next (P := fun _ j' w' => j' = j ∧ w' = w)
    (keeps_work fun time => ⟨(), rfl, rfl, rfl⟩) fun _ j' w' hbefore => ?_
  rw [hbefore.1, hbefore.2]
  obtain ⟨actual, hactual⟩ := hscan hhere
  have hsame : actual = request.manifest := by
    refine scanManifest_congr hactual hsource hhere.targetNamed hstarted.sourceNamed
      fun path hmigrated => ?_
    rw [← hcopying.improves.source path hmigrated.ne_journal]
    exact hcopying.agrees hstarted hsource path hmigrated
  refine keeps_next (P := fun _ j' w' => j' = j ∧ w' = w) ?_ fun _ j' w' hverified => ?_
  · refine keeps_next (P := fun found j' w' => found = actual ∧ j' = j ∧ w' = w)
      (keeps_work fun time => ⟨actual, hactual, rfl, rfl, rfl⟩) fun found j' w' hfound => ?_
    rw [hfound.1, hfound.2.1, hfound.2.2]
    show Keeps _ _ _ (ExceptT.run (if _ then _ else _)) j w
    rw [if_neg (not_not.mpr hsame)]
    exact ⟨trivial, (), rfl, rfl, rfl⟩
  · rw [hverified.1, hverified.2]
    exact ⟨trivial, trivial, _, rfl, hcopying, hsame ▸ hactual⟩

end Works

/-! ## §2. Retries. -/

section Retry

variable [OsName ν] {sha256 : Bytes → Text} {request : CopyAndVerifyRequest ν}

/-- A copy that gets to its entries: its manifest is the one of the source, the target is
accepted, and the journal can be saved in both roots. -/
structure Entered (sha256 : Bytes → Text) (request : CopyAndVerifyRequest ν) (w : Disk ν) :
    Prop where
  sourceNamed : w.source.Named
  targetNamed : w.target.Named
  source : scanManifest sha256 request.environment request.source w.source
    = .ok request.manifest
  target : ∃ existing,
    scanManifest sha256 request.environment request.target w.target = .ok existing
      ∧ validateExistingTarget request.manifest request.retryable existing = .ok ()
  sourceJournal : w.source.look journalPath ≠ some .dir
  targetJournal : w.target.look journalPath ≠ some .dir

theorem Entered.started {w : Disk ν} (h : Entered sha256 request w) : Started w := by
  obtain ⟨existing, hexisting, haccepted⟩ := h.target
  exact {
    sourceNamed := h.sourceNamed
    targetNamed := h.targetNamed
    sourceRoot := (scanManifest_declared h.source).1
    targetRoot := (scanManifest_declared hexisting).1
    sourceAllowed := (scanManifest_declared h.source).2
    targetAllowed := (scanManifest_declared hexisting).2
    within := validateExistingTarget_within h.source hexisting h.sourceNamed h.targetNamed haccepted
    sourceJournal := h.sourceJournal
    targetJournal := h.targetJournal }

/-- What a retry from `w` has come to.  The journal of the source is its own; the counters
saturate where the sums of the manifest wrap. -/
structure Converged (sha256 : Bytes → Text) (request : CopyAndVerifyRequest ν) (w : Disk ν)
    (result : AppResult (VerifiedMigration ν)) (journal : DataMigrationJournal) (w' : Disk ν) :
    Prop where
  verified : ∃ verified, result = .ok verified
  target : scanManifest sha256 request.environment request.target w'.target
    = .ok request.manifest
  written : ∀ path ∈ w'.written, ¬ Agrees sha256 w path
  source : ∀ path, path ≠ journalPath → w'.source.look path = w.source.look path
  files : request.manifest.entries.length < 2 ^ 64 →
    journal.copiedFiles = request.manifest.fileCount
  bytes : (request.manifest.entries.map fun entry => entry.sizeBytes).sum < 2 ^ 64 →
    journal.copiedBytes = request.manifest.totalBytes

/-- The files of the source are those of the beginning. -/
structure SourceKept (w₀ w : Disk ν) : Prop where
  named : w.source.Named
  look : ∀ path, path ≠ journalPath → w.source.look path = w₀.source.look path

theorem SourceKept.savedSource {w₀ w : Disk ν} (h : SourceKept w₀ w) {payload : Bytes}
    {source : Node ν Bytes} (hwrite : w.source.writeFile journalPath payload = some source) :
    SourceKept w₀ { w with source := source } where
  named := h.named.writeFile hwrite
  look path hpath := by
    show source.look path = _
    rw [Node.look_writeFile hwrite, if_neg hpath]
    exact h.look path hpath

/-- **A copy writes its journal into the source, and nothing else.** -/
theorem SourceKept.step {w₀ : Disk ν}
    {beforeVerify : Node ν Bytes → AppResult Unit → Node ν Bytes → Prop}
    (question : CopyQuestion ν) (w : Disk ν) (answer : CopyAnswer question) (w' : Disk ν)
    (hresponds : Responds sha256 request beforeVerify question w answer w')
    (h : SourceKept w₀ w) : SourceKept w₀ w' := by
  cases question with
  | now | targetExists =>
      obtain rfl : w' = w := hresponds
      exact h
  | scanTarget | fileExists path | hashFile path =>
      obtain rfl := hresponds.1
      exact h
  | saveSource payload =>
      obtain ⟨hw, hwritten⟩ := hresponds
      rw [hw]
      cases answer with
      | ok u => exact h.savedSource hwritten
      | error e =>
          rcases hwritten with hsame | hwritten
          · rw [hsame]
            exact h
          · exact h.savedSource hwritten
  | saveTarget payload | createDirAll path | beforeVerify =>
      rw [hresponds.1]
      exact ⟨h.named, h.look⟩
  | copyFileAtomic path =>
      rcases hresponds with ⟨rfl, _⟩ | ⟨content, target, _, _, rfl⟩
      · exact h
      · exact ⟨h.named, h.look⟩

theorem SourceKept.scan {w₀ w : Disk ν} (h : SourceKept w₀ w) (hnamed : w₀.source.Named)
    (hregular : request.environment.Regular)
    (hsource : scanManifest sha256 request.environment request.source w₀.source
      = .ok request.manifest) :
    scanManifest sha256 request.environment request.source w.source = .ok request.manifest := by
  obtain ⟨hroot, hallowed⟩ := scanManifest_declared hsource
  have hnames : ∀ name leaf, w.source.look [name] = some leaf →
      OsName.toStringLossy name ∈ allowedRootEntries := by
    intro name leaf hlook
    by_cases hname : [name] = journalPath
    · obtain rfl := List.singleton_inj.mp hname
      exact allowed_journal
    · exact hallowed name leaf (h.look _ hname ▸ hlook)
  obtain ⟨manifest, hscan⟩ := @scanManifest_isOk _ _ sha256 _ request.source hregular _
    ((h.look [] journalPath_ne_nil.symm).trans hroot) hnames
  rw [hscan, scanManifest_congr hscan hsource h.named hnamed fun path hmigrated => by
    rw [h.look path hmigrated.ne_journal]]

/-- **A retry on a working disk finishes a copy that has failed, wherever it has stopped; and a
copy reports success only for a target that has the manifest of the source.** -/
theorem retry_converges (hregular : request.environment.Regular)
    {beforeVerify : Node ν Bytes → AppResult Unit → Node ν Bytes → Prop} {w₀ w : Disk ν}
    {p : Lib.Process DataMigrationJournal (@CopyAnswer ν) (AppResult (VerifiedMigration ν))}
    {earlier stopped journal : DataMigrationJournal} (hentered : Entered sha256 request w₀)
    (htame : ∀ tree answer tree', beforeVerify tree answer tree' → tree' = tree)
    (hfailed : ReachesWith (Responds sha256 request beforeVerify)
      (copyAndVerify request, earlier, w₀) (p, stopped, w))
    (hvalid : journal.validate request.store.isAbsolute = .ok ())
    (hcounters : journal.copiedFiles = 0 ∧ journal.copiedBytes = 0) :
    ((∃ result journal' w', ReachesWith (Works sha256 { request with retryable := true })
        (copyAndVerify { request with retryable := true }, journal, { w with written := [] })
        (.done result, journal', w'))
      ∧ ∀ result journal' w', ReachesWith (Works sha256 { request with retryable := true })
        (copyAndVerify { request with retryable := true }, journal, { w with written := [] })
        (.done result, journal', w') → Converged sha256 request w result journal' w')
    ∧ ∀ (hook : Node ν Bytes → AppResult Unit → Node ν Bytes → Prop)
        (before after : DataMigrationJournal) (w₁ w₂ : Disk ν) (verified : VerifiedMigration ν),
        w₁.source.Named →
        scanManifest sha256 request.environment request.source w₁.source
          = .ok request.manifest →
        ReachesWith (Responds sha256 request hook) (copyAndVerify request, before, w₁)
          (.done (.ok verified), after, w₂) →
        scanManifest sha256 request.environment request.target w₂.target
          = scanManifest sha256 request.environment request.source w₂.source := by
  refine ⟨⟨⟨_, _, _, runThrough_reaches (fun question w => ⟨0, rfl⟩) _ _ _⟩,
    fun result journal' w' hreach => ?_⟩, ?_⟩
  · have himproves := copyAndVerify_improves hentered.source hentered.started htame hfailed
    have hstarted := hentered.started.of_improves himproves
    have hkept : SourceKept w₀ w := ⟨himproves.sourceNamed, himproves.source⟩
    have hsource := hkept.scan hentered.sourceNamed hregular hentered.source
    have hfresh : Started { w with written := [] } := { hstarted with }
    have hcopying : Copying sha256 { request with retryable := true } { w with written := [] } []
        journal { w with written := [] } := {
      improves := hfresh.improves
      valid := hvalid
      files := hcounters.1
      bytes := hcounters.2
      finished := nofun
      written := nofun }
    have hworks := @copyAndVerify_works ν _ sha256 { request with retryable := true } _ _ _ _
      hregular rfl hfresh hsource hcopying
    obtain ⟨hverified, hend, htarget⟩ := (keeps_iff.mp hworks _ _ _ hreach).2 _ rfl
    obtain ⟨_, _, _, hcount, htotal, _⟩ := scanManifest_eq htarget
    exact {
      verified := hverified
      target := htarget
      written := hend.written
      source := hend.improves.source
      files := fun hlength => by
        have hfiltered := List.length_filter_le
          (fun entry : DataMigrationManifestEntry ν => decide (entry.kind = .file))
          request.manifest.entries
        rw [hend.files, hcount]
        exact Nat.min_eq_left (Nat.le_sub_one_of_lt (hfiltered.trans_lt hlength))
      bytes := fun htotals => by
        rw [hend.bytes, htotal, Nat.mod_eq_of_lt htotals]
        exact Nat.min_eq_left (Nat.le_sub_one_of_lt htotals) }
  · intro hook before after w₁ w₂ verified hnamed hsource hreach
    have hkeeps : (copyAndVerify request).Keeps (Responds sha256 request hook)
        (fun _ w => SourceKept w₁ w) (fun _ _ _ => True) before w₁ :=
      keeps_of_asks (asks_copyAndVerify request)
        (fun question _ => SourceKept.step question) ⟨hnamed, fun _ _ => rfl⟩
    rw [copyAndVerify_ok hreach]
    exact ((keeps_iff.mp hkeeps _ _ _ hreach).1.scan hnamed hregular hsource).symm

end Retry

/-! ## §3. A file that could not be copied. -/

/-- Names that are texts. -/
@[reducible] def textNames : OsName Text where
  ofText text := text
  toStringLossy name := name
  mainSeparator := '/'
  toStringLossy_ofText _ := rfl

attribute [local instance] textNames

def sampleHash (content : Bytes) : Text := content.flatMap fun byte => showNat byte.toNat ++ [',']

/-- One log, below one of the declared entries. -/
def sampleSource : Node Text Bytes :=
  .dir [("logs".toList, .dir [("a".toList, .file [1, 2])]), ("app.db".toList, .file [3])]

def sampleRequest : CopyAndVerifyRequest Text where
  source := ["s".toList]
  target := ["t".toList]
  manifest :=
    { entries := [⟨["app.db".toList], .file, 1, some "3,".toList⟩,
        ⟨["logs".toList], .directory, 0, none⟩,
        ⟨["logs".toList, "a".toList], .file, 2, some "1,2,".toList⟩]
      fileCount := 2
      totalBytes := 3 }
  retryable := false
  store :=
    { isAbsolute := fun path => path.head? = some '/'
      toVecPretty := fun journal =>
        [UInt8.ofNat journal.copiedFiles, if journal.phase = .failed then 1 else 0] }
  environment := { isReparsePoint := fun _ => .ok false }

def sampleJournal : DataMigrationJournal where
  schemaVersion := 1
  migrationId := "0".toList
  source := "/s".toList
  target := "/t".toList
  sourceMode := .registry
  parentPid := 7
  fileCount := 2
  totalBytes := 3
  copiedFiles := 0
  copiedBytes := 0
  phase := .prepared
  errorSummary := none
  startedAt := 1
  updatedAt := 1
  acknowledged := false

/-- A disk on which the log cannot be copied. -/
def sampleFault (question : CopyQuestion Text) (w : Disk Text) :
    CopyAnswer question × Disk Text :=
  match question with
  | .copyFileAtomic path =>
      if path = ["logs".toList, "a".toList] then ((.error notPossible : AppResult Unit), w)
      else work sampleHash sampleRequest 2 (.copyFileAtomic path) w
  | question => work sampleHash sampleRequest 2 question w

def sampleFailed :
    AppResult (VerifiedMigration Text) × DataMigrationJournal × Disk Text :=
  runThrough sampleFault (copyAndVerify sampleRequest) sampleJournal
    ⟨sampleSource, .dir [], []⟩

def sampleRetried :
    AppResult (VerifiedMigration Text) × DataMigrationJournal × Disk Text :=
  runThrough (work sampleHash { sampleRequest with retryable := true } 3)
    (copyAndVerify { sampleRequest with retryable := true }) sampleJournal
    { sampleFailed.2.2 with written := [] }

theorem sampleFault_responds (question : CopyQuestion Text) (w : Disk Text) :
    Responds sampleHash sampleRequest (fun tree _ tree' => tree' = tree) question w
      (sampleFault question w).1 (sampleFault question w).2 := by
  unfold sampleFault
  split
  next path =>
    split
    next => exact Or.inl ⟨rfl, nofun⟩
    next => exact work_responds 2 _ w
  next => exact work_responds 2 _ w

theorem sampleSource_named : sampleSource.Named := by
  refine .dir (by decide) fun e he => ?_
  rcases List.mem_cons.mp he with rfl | he
  · refine .dir (by decide) fun e he => ?_
    obtain rfl := List.mem_singleton.mp he
    exact .file _
  · obtain rfl := List.mem_singleton.mp he
    exact .file _

theorem sample_entered : Entered sampleHash sampleRequest ⟨sampleSource, .dir [], []⟩ where
  sourceNamed := sampleSource_named
  targetNamed := .empty
  source := by rfl
  target := ⟨⟨[], 0, 0⟩, by rfl, by rfl⟩
  sourceJournal := by decide
  targetJournal := by decide

theorem sampleFailed_reached :
    ReachesWith (Responds sampleHash sampleRequest fun tree _ tree' => tree' = tree)
      (copyAndVerify sampleRequest, sampleJournal, ⟨sampleSource, .dir [], []⟩)
      (.done sampleFailed.1, sampleFailed.2.1, sampleFailed.2.2) :=
  runThrough_reaches sampleFault_responds _ _ _

theorem sampleRetried_reached :
    ReachesWith (Works sampleHash { sampleRequest with retryable := true })
      (copyAndVerify { sampleRequest with retryable := true }, sampleJournal,
        { sampleFailed.2.2 with written := [] })
      (.done sampleRetried.1, sampleRetried.2.1, sampleRetried.2.2) :=
  runThrough_reaches (fun _ _ => ⟨3, rfl⟩) _ _ _

theorem retry_converges_after_fault :
    Converged sampleHash sampleRequest sampleFailed.2.2 sampleRetried.1 sampleRetried.2.1
      sampleRetried.2.2 := by
  have hvalid : sampleJournal.validate sampleRequest.store.isAbsolute = .ok () := by decide
  exact (retry_converges (fun _ => rfl) sample_entered (fun _ _ _ h => h)
    sampleFailed_reached hvalid ⟨rfl, rfl⟩).1.2 _ _ _ sampleRetried_reached

/-- The retry finishes the copy, but its journal in the source is another one. -/
theorem retry_rewrites_source_journal :
    sampleFailed.1.toBool = false ∧ sampleRetried.1.toBool = true
      ∧ sampleRetried.2.2.source.look journalPath ≠ sampleFailed.2.2.source.look journalPath := by
  decide +kernel

end QingzhouSSH.Core.DataMigration
