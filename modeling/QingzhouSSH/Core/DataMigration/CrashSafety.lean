/-
  QingzhouSSH.Core.DataMigration.CrashSafety — migrations that stop anywhere.

  Before the pointer is moved, the source has its files and the pointers are the old ones;
  when it is moved, the target has every file of the source.  So the next start uses a root
  with all of the data, whatever has failed.

  Main results:
    * `Before.step`, `safe_saving`, `safe_committed` — what the steps of the worker keep;
    * `runSystemWorker_keeps` — wherever the worker stops, the roots are safe;
    * `migration_loses_nothing` — a start after a migration uses a root that has every file.
-/
import QingzhouSSH.Core.DataMigration.Worker

namespace QingzhouSSH.Core.DataMigration

open QingzhouSSH.Core.DataRoot
open QingzhouSSH.Lib.FileTree
open QingzhouSSH.Lib.Process

variable {ν : Type}

/-! ## §1. What the worker writes before the pointer. -/

/-- Only journals of this migration are saved. -/
def SavesRun (journal : DataMigrationJournal) : CopyQuestion ν → Prop
  | .saveSource payload | .saveTarget payload =>
      ∃ journal', SameRun journal journal' ∧ payload = journal'.toVecPretty
  | _ => True

section Within

variable {journal : DataMigrationJournal} {manifest : DataMigrationManifest ν}

/-- What a copy of this migration asks. -/
def CopySaves (journal : DataMigrationJournal) (manifest : DataMigrationManifest ν)
    (question : CopyQuestion ν) : Prop :=
  CopyAsks manifest question ∧ SavesRun journal question

theorem within_attempt {α : Type} {question : CopyQuestion ν}
    {result : CopyAnswer question → AppResult α} (h : CopySaves journal manifest question) :
    Within (SameRun journal) (CopySaves journal manifest) (attempt question result).run :=
  ⟨h, fun _ => trivial⟩

theorem within_ask {question : CopyQuestion ν} (h : CopySaves journal manifest question) :
    Within (SameRun journal) (CopySaves journal manifest) (ask question).run :=
  ⟨h, fun _ => trivial⟩

theorem within_setJournal {f : DataMigrationJournal → DataMigrationJournal}
    (hf : ∀ journal', SameRun journal journal' → SameRun journal (f journal')) :
    Within (SameRun journal) (CopySaves journal manifest) (setJournal f : CopyProcess ν _).run :=
  fun journal' hsame => ⟨hf journal' hsame, trivial⟩

variable [OsName ν] {host : MigrationHost ν}

omit [OsName ν] in
theorem within_save : Within (SameRun journal) (CopySaves journal manifest)
    (save (journalFormat host) : CopyProcess ν Unit).run := by
  intro journal' hsame
  refine ⟨hsame, ?_⟩
  refine within_andThen (within_conclude (journal'.validate host.isAbsolute)) fun _ => ?_
  refine within_andThen (within_attempt ⟨trivial, journal', hsame, rfl⟩) fun _ => ?_
  refine within_andThen (within_ask ⟨trivial, trivial⟩) fun found => ?_
  cases found with
  | false => trivial
  | true => exact within_attempt ⟨trivial, journal', hsame, rfl⟩

omit [OsName ν] in
theorem within_transition {phase : DataMigrationPhase} :
    Within (SameRun journal) (CopySaves journal manifest)
      (transition (journalFormat host) phase : CopyProcess ν Unit).run := by
  refine within_andThen (within_ask ⟨trivial, trivial⟩) fun now => ?_
  exact within_andThen (within_setJournal fun _ h => h.transition phase now) fun _ => within_save

omit [OsName ν] in
theorem within_recordFailure (error : AppError) :
    Within (SameRun journal) (CopySaves journal manifest)
      (recordFailure (journalFormat host) error :
        Lib.Process DataMigrationJournal (@CopyAnswer ν) Unit) := by
  refine within_bind (p := query CopyQuestion.now) ⟨⟨trivial, trivial⟩, fun _ => trivial⟩
    fun now => ?_
  refine within_bind (p := atomic _) (fun _ h => ⟨h.fail error now, trivial⟩) fun _ => ?_
  exact within_bind within_save fun _ => trivial

omit [OsName ν] in
theorem within_shouldCopyFile {entry : DataMigrationManifestEntry ν} {retryable : Bool} :
    Within (SameRun journal) (CopySaves journal manifest) (shouldCopyFile entry retryable).run := by
  refine within_andThen (within_ask ⟨trivial, trivial⟩) fun found => ?_
  cases found with
  | false => trivial
  | true =>
      cases retryable with
      | false => trivial
      | true => exact within_andThen (within_attempt ⟨trivial, trivial⟩) fun _ => trivial

omit [OsName ν] in
theorem within_copyFile {entry : DataMigrationManifestEntry ν} {retryable : Bool}
    (hentry : entry ∈ manifest.entries) (hkind : entry.kind = .file) :
    Within (SameRun journal) (CopySaves journal manifest) (copyFile entry retryable).run := by
  refine within_andThen within_shouldCopyFile fun copies => ?_
  cases copies with
  | false => trivial
  | true =>
      refine within_andThen
        (within_attempt ⟨⟨entry, hentry, Or.inr ⟨hkind, rfl⟩⟩, trivial⟩) fun _ => ?_
      exact within_attempt ⟨⟨entry, hentry, hkind, rfl⟩, trivial⟩

omit [OsName ν] in
theorem within_copyEntries {entries : List (DataMigrationManifestEntry ν)} {retryable : Bool}
    (hentries : ∀ entry ∈ entries, entry ∈ manifest.entries) :
    Within (SameRun journal) (CopySaves journal manifest)
      (copyEntries (journalFormat host) retryable entries).run := by
  induction entries with
  | nil => trivial
  | cons entry rest ih =>
      obtain ⟨hentry, hrest⟩ := List.forall_mem_cons.mp hentries
      refine within_andThen ?_ fun _ => ih hrest
      unfold copyEntry
      split
      next hkind => exact within_attempt ⟨⟨entry, hentry, Or.inl ⟨hkind, rfl⟩⟩, trivial⟩
      next hkind =>
        refine within_andThen (within_copyFile hentry hkind) fun _ => ?_
        refine within_andThen (within_ask ⟨trivial, trivial⟩) fun now => ?_
        exact within_andThen (within_setJournal fun _ h => h.copied _ now) fun _ => within_save

theorem within_verifyManifest {expected : DataMigrationManifest ν} :
    Within (SameRun journal) (CopySaves journal manifest) (verifyManifest expected).run := by
  refine within_andThen (within_attempt ⟨trivial, trivial⟩) fun actual => ?_
  by_cases h : actual ≠ expected
  · rw [if_pos h]
    trivial
  · rw [if_neg h]
    trivial

/-- **A copy saves journals of its migration, and writes what its manifest says.** -/
theorem within_copyAndVerify {request : CopyAndVerifyRequest ν}
    (hstore : request.store = journalFormat host) :
    (copyAndVerify request).Within (SameRun journal) (CopySaves journal request.manifest) := by
  have hinner : Within (SameRun journal) (CopySaves journal request.manifest)
      (copyAndVerifyInner request).run := by
    unfold copyAndVerifyInner
    rw [hstore]
    refine within_andThen (within_attempt ⟨trivial, trivial⟩) fun existing => ?_
    refine within_andThen (within_conclude _) fun _ => ?_
    refine within_andThen within_transition fun _ => ?_
    refine within_andThen (within_copyEntries fun _ h => h) fun _ => ?_
    refine within_andThen within_transition fun _ => ?_
    refine within_andThen (within_attempt ⟨trivial, trivial⟩) fun _ => ?_
    exact within_andThen within_verifyManifest fun _ => fun _ hsame => ⟨hsame, trivial⟩
  refine within_bind hinner fun result => ?_
  cases result with
  | ok verified => trivial
  | error error =>
      dsimp only
      rw [hstore]
      exact within_bind (within_recordFailure error) fun _ => trivial

end Within

/-! ## §2. Before the pointer is moved. -/

/-- The worker's own question, or one that a copy of this migration asks. -/
def Quiet (journal : DataMigrationJournal) : WorkerQuestion ν → Prop
  | .savePointer _ _ => False
  | .copy question => SavesRun journal question
  | _ => True

section Steps

variable [OsName ν] {host : MigrationHost ν} {environment : MigrationEnvironment ν}
  {sha256 : Bytes → Text} {journal : DataMigrationJournal} {w₀ w w' : Roots ν}

/-- The source has its files, and the pointers are the old ones. -/
structure Before (journal : DataMigrationJournal) (w₀ w : Roots ν) : Prop where
  source : SourceKept w₀.disk w.disk
  recorded : Recorded journal w.disk.source
  pointers : w.pointers = w₀.pointers

theorem recorded_saved {journal' : DataMigrationJournal} (hsame : SameRun journal journal')
    {tree tree' : Node ν Bytes}
    (hwrite : tree.writeFile journalPath journal'.toVecPretty = some tree') :
    Recorded journal tree' := by
  refine ⟨journal'.toVecPretty, journal'.wrapped, ?_,
    DataMigrationJournal.fromSlice_toVecPretty hsame.hyphenated, hsame.wrapped⟩
  rw [Node.look_writeFile hwrite, if_pos rfl]

theorem recorded_written {payload : Bytes}
    (hsaved : ∃ journal', SameRun journal journal' ∧ payload = journal'.toVecPretty)
    {tree tree' : Node ν Bytes} (htree : Recorded journal tree) {answer : AppResult Unit}
    (hwritten : FileWritten journalPath payload tree answer tree') : Recorded journal tree' := by
  obtain ⟨journal', hsame, rfl⟩ := hsaved
  cases answer with
  | ok u => exact recorded_saved hsame hwritten
  | error e =>
      rcases hwritten with hsame' | hwritten
      · rw [hsame']
        exact htree
      · exact recorded_saved hsame hwritten

/-- A copy writes nothing into the source but its journal. -/
theorem recorded_source {request : CopyAndVerifyRequest ν}
    {beforeVerify : Node ν Bytes → AppResult Unit → Node ν Bytes → Prop}
    {question : CopyQuestion ν} (hsaves : SavesRun journal question) {d d' : Disk ν}
    {answer : CopyAnswer question}
    (hresponds : Responds sha256 request beforeVerify question d answer d')
    (h : Recorded journal d.source) : Recorded journal d'.source := by
  cases question with
  | saveSource payload => exact recorded_written hsaves h hresponds.2
  | now | targetExists =>
      obtain rfl : d' = d := hresponds
      exact h
  | scanTarget | fileExists path | hashFile path =>
      obtain rfl := hresponds.1
      exact h
  | saveTarget payload | createDirAll path | beforeVerify =>
      rw [hresponds.1]
      exact h
  | copyFileAtomic path =>
      rcases hresponds with ⟨rfl, _⟩ | ⟨content, target, _, _, rfl⟩
      · exact h
      · exact h

/-- **Nothing that the worker does before the pointer touches the source or the pointers.** -/
theorem Before.step (question : WorkerQuestion ν) (hquiet : Quiet journal question) (w : Roots ν)
    (answer : WorkerAnswer question) (w' : Roots ν)
    (hresponds : WorkerResponds host environment sha256 journal question w answer w')
    (h : Before journal w₀ w) : Before journal w₀ w' := by
  have hsame : w'.disk.source = w.disk.source → w'.pointers = w.pointers →
      Before journal w₀ w' := by
    intro hsource hpointers
    refine ⟨⟨w'.sourceNamed, ?_⟩, by rw [hsource]; exact h.recorded, hpointers.trans h.pointers⟩
    rw [hsource]
    exact h.source.look
  by_cases hharmless : Harmless question
  · rw [harmless_responds hharmless hresponds]
    exact h
  cases question with
  | copy question =>
      obtain ⟨hpointers, -, hdisk⟩ := copy_responds hresponds
      exact ⟨h.source.step question w.disk answer w'.disk hdisk,
        recorded_source hquiet hdisk h.recorded, hpointers.trans h.pointers⟩
  | savePointer mode path => exact hquiet.elim
  | createTarget => exact hsame (congrArg Disk.source hresponds.1) hresponds.2.1
  | createProbe name | removeProbe name | writeMarker payload =>
      exact hsame hresponds.1.source hresponds.1.pointers
  | _ => exact (hharmless (by trivial)).elim

/-- A target that is there stays there. -/
theorem targetExists_step (question : WorkerQuestion ν) (w : Roots ν)
    (answer : WorkerAnswer question) (w' : Roots ν)
    (hresponds : WorkerResponds host environment sha256 journal question w answer w')
    (h : w.targetExists = true) : w'.targetExists = true := by
  by_cases hharmless : Harmless question
  · rw [harmless_responds hharmless hresponds]
    exact h
  cases question with
  | copy question => exact (copy_responds hresponds).2.1.trans h
  | savePointer mode path =>
      rw [hresponds.1]
      exact h
  | createTarget => exact hresponds.2.2 (Or.inl h)
  | createProbe name | removeProbe name | writeMarker payload =>
      exact hresponds.1.targetExists.trans h
  | _ => exact (hharmless (by trivial)).elim

/-- What is quiet keeps the source and the pointers. -/
theorem keeps_quiet {α : Type} {p : Lib.Process DataMigrationJournal (@WorkerAnswer ν) α}
    (hp : p.Within (SameRun journal) (Quiet journal)) {s : DataMigrationJournal}
    (hs : SameRun journal s) (h : Before journal w₀ w) :
    p.Keeps (WorkerResponds host environment sha256 journal) (fun _ w => Before journal w₀ w)
      (fun _ s' _ => SameRun journal s') s w :=
  (keeps_of_within hp Before.step hs h).mono (fun _ _ hc => hc.2) fun _ _ _ hc _ => hc.1

end Steps

/-! ## §3. What the preflight finds. -/

section Preflight

variable [OsName ν] {host : MigrationHost ν} {environment : MigrationEnvironment ν}
  {sha256 : Bytes → Text} {journal : DataMigrationJournal} {w₀ w w' : Roots ν}

/-- A part that is quiet, with the journals of this migration. -/
abbrev IsQuiet {α : Type} (journal : DataMigrationJournal) (p : WorkerProcess ν α) : Prop :=
  Within (SameRun journal) (Quiet journal) p.run

omit [OsName ν] in
theorem quiet_setWorkerJournal {f : DataMigrationJournal → DataMigrationJournal}
    (hf : ∀ journal', SameRun journal journal' → SameRun journal (f journal')) :
    IsQuiet journal (setWorkerJournal f : WorkerProcess ν Unit) :=
  fun journal' hsame => ⟨hf journal' hsame, trivial⟩

omit [OsName ν] in
theorem quiet_of_harmless (question : WorkerQuestion ν) (h : Harmless question) :
    Quiet journal question := by
  cases question with
  | copy question =>
      cases question with
      | now => trivial
      | targetExists => trivial
      | _ => exact h.elim
  | _ => trivial

theorem quiet_preflightSpace (target : Text) (requiredBytes : Nat) :
    IsQuiet journal (preflightSpace host environment target requiredBytes) := by
  refine within_andThen (within_conclude _) fun linked => ?_
  refine within_andThen (within_conclude _) fun _ => ?_
  refine within_andThen ?_ fun _ => ?_
  · refine within_andThen (within_inquire (by trivial)) fun id => ?_
    refine within_andThen (within_inquire (by trivial)) fun result => ?_
    refine within_andThen (within_inquire (by trivial)) fun cleanup => ?_
    exact within_andThen (within_conclude _) fun _ => within_conclude _
  · refine within_andThen (within_tryAsk trivial _) fun available => ?_
    exact within_andThen (within_conclude _) fun _ => trivial

/-- What a part of the worker returns, with a journal of this migration. -/
def Yields {α : Type} (journal : DataMigrationJournal) (F : α → Roots ν → Prop)
    (r : AppResult α) (s : DataMigrationJournal) (w : Roots ν) : Prop :=
  SameRun journal s ∧ ∀ a, r = .ok a → F a w

theorem yields_error {α : Type} {F : α → Roots ν → Prop} {s : DataMigrationJournal}
    (hs : SameRun journal s) (e : AppError) : Yields journal F (.error e) s w :=
  ⟨hs, fun _ h => by cases h⟩

theorem yields_ok {α : Type} {F : α → Roots ν → Prop} {s : DataMigrationJournal}
    (hs : SameRun journal s) {a : α} (h : F a w) : Yields journal F (.ok a) s w :=
  ⟨hs, fun _ ha => Except.ok.inj ha ▸ h⟩

/-- The worker up to here: the source and the pointers as they were, and what is returned. -/
abbrev Quietly {α : Type} (host : MigrationHost ν) (environment : MigrationEnvironment ν)
    (sha256 : Bytes → Text) (journal : DataMigrationJournal) (w₀ : Roots ν)
    (F : α → Roots ν → Prop) (p : WorkerProcess ν α) (s : DataMigrationJournal) (w : Roots ν) :
    Prop :=
  Keeps (WorkerResponds host environment sha256 journal) (fun _ w => Before journal w₀ w)
    (Yields journal F) p.run s w

/-- A quiet part, with nothing to say of what it returns; a target that is there stays. -/
theorem quietly_part {α β : Type} {F : α → Roots ν → Prop} {p : WorkerProcess ν β}
    {f : β → WorkerProcess ν α}
    (hp : IsQuiet journal p) {s : DataMigrationJournal} (hs : SameRun journal s)
    (h : Before journal w₀ w)
    (hf : ∀ b s' w', SameRun journal s' → Before journal w₀ w' →
      (w.targetExists = true → w'.targetExists = true) →
      Quietly host environment sha256 journal w₀ F (f b) s' w') :
    Quietly host environment sha256 journal w₀ F (p >>= f) s w := by
  let Stays (w' : Roots ν) : Prop := w.targetExists = true → w'.targetExists = true
  have hexists : p.run.Keeps (WorkerResponds host environment sha256 journal)
      (fun _ w' => Stays w') (fun _ _ w' => Stays w') s w :=
    keeps_of_step p.run (fun question w₁ answer w₂ hresponds hstays hw =>
      targetExists_step question w₁ answer w₂ hresponds (hstays hw)) id
  refine keeps_part ((keeps_quiet hp hs h).and hexists |>.mono (fun _ _ hc => hc.1)
    fun _ _ _ _ hq => hq) (fun b s' w' hb hq => hf b s' w' hq.1 hb hq.2) fun e _ _ _ hq => ?_
  exact yields_error hq.1 e

/-- A part, with what it returns. -/
theorem quietly_then {α β : Type} {F : α → Roots ν → Prop} {G : β → Roots ν → Prop}
    {p : WorkerProcess ν β} {f : β → WorkerProcess ν α} {s : DataMigrationJournal}
    (hp : Quietly host environment sha256 journal w₀ G p s w)
    (hf : ∀ b s' w', SameRun journal s' → Before journal w₀ w' → G b w' →
      Quietly host environment sha256 journal w₀ F (f b) s' w') :
    Quietly host environment sha256 journal w₀ F (p >>= f) s w :=
  keeps_part hp (fun b s' w' hb hyields => hf b s' w' hyields.1 hb (hyields.2 b rfl))
    fun e _ _ _ hyields => yields_error hyields.1 e

theorem quietly_tryAsk {α β : Type} {F : α → Roots ν → Prop} {question : WorkerQuestion ν}
    (hquiet : Quiet journal question)
    {result : WorkerAnswer question → AppResult β} {f : β → WorkerProcess ν α}
    {s : DataMigrationJournal} (hs : SameRun journal s) (h : Before journal w₀ w)
    (hf : ∀ answer w' b, WorkerResponds host environment sha256 journal question w answer w' →
      result answer = .ok b → Before journal w₀ w' →
      Quietly host environment sha256 journal w₀ F (f b) s w') :
    Quietly host environment sha256 journal w₀ F (tryAsk question result >>= f) s w :=
  keeps_tryAsk h
    (fun answer w' b hresponds hok =>
      hf answer w' b hresponds hok (h.step question hquiet w answer w' hresponds))
    fun answer w' e hresponds _ =>
      ⟨h.step question hquiet w answer w' hresponds, yields_error hs e⟩

/-- A manifest of the files of the source. -/
def Lists (sha256 : Bytes → Text) (environment : MigrationEnvironment ν) (w₀ : Roots ν)
    (manifest : DataMigrationManifest ν) : Prop :=
  ∃ (tree : Node ν Bytes) (root : List ν), tree.Named
    ∧ (∀ path, path ≠ journalPath → tree.look path = w₀.disk.source.look path)
    ∧ scanManifest sha256 environment root tree = .ok manifest

theorem preflightPaths_quietly {s : DataMigrationJournal} (hs : SameRun journal s)
    (h : Before journal w₀ w) (source target : Text) :
    Quietly host environment sha256 journal w₀
      (fun path _ => host.canonicalize source = some path)
      (preflightPaths host environment source target) s w := by
  refine quietly_part (within_conclude _) hs h fun _ s w hs h _ => ?_
  refine quietly_part (within_conclude _) hs h fun _ s w hs h _ => ?_
  refine quietly_part (within_inquire (by trivial)) hs h fun _ s w hs h _ => ?_
  refine quietly_part (within_conclude _) hs h fun _ s w hs h _ => ?_
  refine quietly_tryAsk (by trivial) hs h fun answer w path hresponds hok h => ?_
  have hcanonical := hresponds.2 path hok
  refine quietly_part (within_normalizeFuturePath quiet_of_harmless _ _) hs h
    fun _ s w hs h _ => ?_
  refine quietly_part (within_conclude _) hs h fun _ s w hs h _ => ?_
  refine quietly_part (within_rejectReparseAncestors quiet_of_harmless _) hs h
    fun _ s w hs h _ => ?_
  refine quietly_part (within_conclude _) hs h fun _ s w hs h _ => ?_
  refine quietly_part (within_conclude _) hs h fun _ s w hs h _ => ?_
  exact ⟨h, yields_ok hs hcanonical⟩

/-- What a preflight makes sure of. -/
structure Checked (host : MigrationHost ν) (environment : MigrationEnvironment ν)
    (sha256 : Bytes → Text) (source target : Text) (w₀ : Roots ν)
    (checked : DataMigrationPreview × DataMigrationManifest ν) (w : Roots ν) : Prop where
  source : host.canonicalize source = some checked.1.source
  target : host.canonicalize target = some checked.1.target
  targetExists : w.targetExists = true
  lists : Lists sha256 environment w₀ checked.2

theorem preflightInner_quietly {s : DataMigrationJournal} (hs : SameRun journal s)
    (h : Before journal w₀ w) (source target : Text) (now : Int) (retryable : Bool) :
    Quietly host environment sha256 journal w₀
      (Checked host environment sha256 source target w₀)
      (preflightInner host environment source target now retryable) s w := by
  refine quietly_then (preflightPaths_quietly hs h source target)
    fun normalized s w hs h hsource => ?_
  refine quietly_tryAsk (by trivial) hs h fun answer w manifest hscan hok h => ?_
  obtain ⟨rfl, hscan⟩ := hscan
  have hlists : Lists sha256 environment w₀ manifest :=
    ⟨w.disk.source, _, w.sourceNamed, h.source.look, hscan manifest hok⟩
  refine quietly_part (within_preflightTarget quiet_of_harmless _ _ _) hs h
    fun _ s w hs h _ => ?_
  refine quietly_tryAsk (by trivial) hs h fun answer w u hcreated hok h => ?_
  have hexists : w.targetExists = true := hcreated.2.2 (Or.inr hok)
  refine quietly_part (quiet_preflightSpace _ _) hs h fun available s w hs h hstays => ?_
  replace hexists := hstays hexists
  refine quietly_part (within_inquire (by trivial)) hs h fun _ s w hs h hstays => ?_
  replace hexists := hstays hexists
  refine quietly_part (within_inquire (by trivial)) hs h fun _ s w hs h hstays => ?_
  replace hexists := hstays hexists
  refine quietly_tryAsk (by trivial) hs h fun answer w path hcanonical hok h => ?_
  obtain ⟨rfl, hcanonical⟩ := hcanonical
  exact ⟨h, yields_ok hs ⟨hsource, hcanonical path hok, hexists, hlists⟩⟩

theorem preflightOrRetry_quietly {s : DataMigrationJournal} (hs : SameRun journal s)
    (h : Before journal w₀ w) (source target : Text) :
    Quietly host environment sha256 journal w₀
      (Checked host environment sha256 source target w₀)
      (preflightOrRetry host environment source target) s w := by
  refine quietly_part (within_inquire (by trivial)) hs h fun now s w hs h _ => ?_
  refine keeps_lifted (preflightInner_quietly hs h source target now false)
    fun first s w h hfirst => ?_
  cases first with
  | ok checked => exact ⟨h, yields_ok hfirst.1 (hfirst.2 checked rfl)⟩
  | error e =>
      refine quietly_part (within_inquire (by trivial)) hfirst.1 h fun now s w hs h _ => ?_
      exact preflightInner_quietly hs h source target now true

end Preflight

/-! ## §4. What the copy comes to. -/

section Copied

variable [OsName ν] {host : MigrationHost ν} {environment : MigrationEnvironment ν}
  {sha256 : Bytes → Text} {journal : DataMigrationJournal} {w₀ w w' : Roots ν}

/-- A disk whose target is there. -/
def Truthful (sha256 : Bytes → Text) (request : CopyAndVerifyRequest ν) :
    (question : CopyQuestion ν) → Disk ν → CopyAnswer question → Disk ν → Prop
  | .targetExists, d, answer, d' => d' = d ∧ answer = true
  | question, d, answer, d' => Responds sha256 request Undisturbed question d answer d'

/-- Both roots have the journal that is saved, and it is one that is accepted. -/
def Saved (host : MigrationHost ν) (s : DataMigrationJournal) (r : AppResult Unit)
    (s' : DataMigrationJournal) (d : Disk ν) : Prop :=
  s' = s ∧ (r = .ok () → s.validate host.isAbsolute = .ok ()
    ∧ d.source.look journalPath = some (.file s.toVecPretty)
    ∧ d.target.look journalPath = some (.file s.toVecPretty))

theorem save_saved {request : CopyAndVerifyRequest ν} (s : DataMigrationJournal) (d : Disk ν) :
    Keeps (Truthful sha256 request) (fun _ _ => True) (Saved host s)
      (save (journalFormat host) : CopyProcess ν Unit).run s d := by
  have herror : ∀ (e : AppError) (d : Disk ν), Saved host s (.error e) s d :=
    fun e d => ⟨rfl, fun h => by cases h⟩
  refine ⟨trivial, ?_⟩
  refine keeps_conclude trivial (fun _ hvalid => ?_) fun e _ => herror e d
  refine keeps_tryAsk trivial (fun answer d₁ _ hsource hok => ?_)
    fun answer d₁ e _ _ => ⟨trivial, herror e d₁⟩
  obtain rfl : answer = .ok () := hok
  refine keeps_answer trivial fun found d₂ hfound => ?_
  obtain ⟨rfl, rfl⟩ := hfound
  refine ⟨trivial, fun answer d₃ htarget => ⟨trivial, rfl, fun hok => ?_⟩⟩
  obtain rfl : answer = .ok () := hok
  obtain ⟨hd, htarget⟩ := htarget
  refine ⟨hvalid, ?_, ?_⟩
  · rw [hd]
    show d₂.source.look journalPath = _
    rw [Node.look_writeFile hsource.2, if_pos rfl]
    rfl
  · rw [Node.look_writeFile htarget, if_pos rfl]
    rfl

/-- Two trees with one manifest have the same entries. -/
theorem entries_of_manifest {environment' : MigrationEnvironment ν} {root root' : List ν}
    {tree tree' : Node ν Bytes} {manifest : DataMigrationManifest ν}
    (hscan : scanManifest sha256 environment root tree = .ok manifest)
    (hscan' : scanManifest sha256 environment' root' tree' = .ok manifest)
    (hnamed : tree.Named) (hnamed' : tree'.Named) {path : List ν} (hmigrated : Migrated path) :
    (tree.look path).map (entryOf sha256 path) = (tree'.look path).map (entryOf sha256 path) := by
  have hseen : ∀ {environment environment' : MigrationEnvironment ν} {root root' : List ν}
      {tree tree' : Node ν Bytes}, scanManifest sha256 environment root tree = .ok manifest →
      scanManifest sha256 environment' root' tree' = .ok manifest → tree.Named → tree'.Named →
      ∀ leaf, tree.look path = some leaf →
        (tree'.look path).map (entryOf sha256 path) = some (entryOf sha256 path leaf) := by
    intro _ _ _ _ tree tree' hscan hscan' hnamed hnamed' leaf hlook
    have hmem := (mem_scanManifest hscan hnamed _).mpr ⟨path, leaf, hmigrated, hlook, rfl⟩
    obtain ⟨path', leaf', _, hlook', hentry⟩ := (mem_scanManifest hscan' hnamed' _).mp hmem
    have hpath : path = path' := by
      have := congrArg DataMigrationManifestEntry.relativePath hentry
      rwa [entryOf_path, entryOf_path] at this
    subst hpath
    rw [hlook', hentry]
    rfl
  cases hlook : tree.look path with
  | some leaf => exact (hseen hscan hscan' hnamed hnamed' leaf hlook).symm
  | none =>
      cases hlook' : tree'.look path with
      | none => rfl
      | some leaf =>
          have hother := hseen hscan' hscan hnamed' hnamed leaf hlook'
          rw [hlook] at hother
          cases hother

/-- A copy leaves the journal of the target, or writes it. -/
theorem recorded_target {manifest : DataMigrationManifest ν} {tree : Node ν Bytes} {root : List ν}
    (hnamed : tree.Named)
    (hscan : scanManifest sha256 environment root tree = .ok manifest)
    {request : CopyAndVerifyRequest ν} (question : CopyQuestion ν)
    (hasked : CopySaves journal manifest question) (d : Disk ν) (answer : CopyAnswer question)
    (d' : Disk ν) (hresponds : Responds sha256 request Undisturbed question d answer d')
    (h : Recorded journal d.target) : Recorded journal d'.target := by
  have hkept : ∀ {target : Node ν Bytes}, target.look journalPath = d.target.look journalPath →
      Recorded journal target := by
    intro target hlook
    obtain ⟨payload, journal', hfile, hread⟩ := h
    exact ⟨payload, journal', hlook.trans hfile, hread⟩
  cases question with
  | now | targetExists =>
      obtain rfl : d' = d := hresponds
      exact h
  | scanTarget | fileExists path | hashFile path =>
      obtain rfl := hresponds.1
      exact h
  | saveSource payload =>
      rw [hresponds.1]
      exact h
  | saveTarget payload => exact recorded_written hasked.2 h hresponds.2
  | createDirAll path =>
      obtain ⟨-, hplain⟩ := @look_asked _ _ _ _ _ { request with manifest := manifest }
        ⟨tree, tree, []⟩ hscan hnamed _ hasked.1
      have hcreated := hresponds.2
      cases answer with
      | ok u =>
          refine hkept ?_
          rw [Node.look_createDirAll hcreated, if_neg hplain]
      | error e =>
          rcases hcreated with hsame | ⟨above, habove, hcreated⟩
          · exact hkept (by rw [hsame])
          · refine hkept ?_
            rw [Node.look_createDirAll hcreated, if_neg fun hjournal =>
              hplain (hjournal.trans habove)]
  | copyFileAtomic path =>
      rcases hresponds with ⟨rfl, _⟩ | ⟨content, target, hlook, hwrite, rfl⟩
      · exact h
      · obtain ⟨entry, hentry, _, rfl⟩ := hasked.1
        obtain ⟨path, leaf, hmigrated, _, rfl⟩ := (mem_scanManifest hscan hnamed entry).mp hentry
        refine hkept ?_
        rw [Node.look_writeFile hwrite, if_neg (by
          rw [entryOf_path]
          exact hmigrated.ne_journal.symm)]
  | beforeVerify =>
      rw [show d'.target = d.target from hresponds.2]
      exact h

/-- A part of a copy, in the roots. -/
theorem keeps_copying {α : Type} {p : Lib.Process DataMigrationJournal (@CopyAnswer ν) α}
    {R : (question : CopyQuestion ν) → Disk ν → CopyAnswer question → Disk ν → Prop}
    {C : DataMigrationJournal → Disk ν → Prop} {Q : α → DataMigrationJournal → Disk ν → Prop}
    {s : DataMigrationJournal}
    (hR : ∀ question w answer w', w.targetExists = true →
      WorkerResponds host environment sha256 journal (.copy question) w answer w' →
      R question w.disk answer w'.disk)
    (h : p.Keeps R C Q s w.disk) (hexists : w.targetExists = true) :
    (copying p).Keeps (WorkerResponds host environment sha256 journal)
      (fun _ w => w.targetExists = true) (fun a s' w' => Q a s' w'.disk) s w :=
  Keeps.mono (keeps_widen (fun question w answer w' hw hresponds =>
    ⟨hR question w answer w' hw hresponds,
      targetExists_step (.copy question) w answer w' hresponds hw⟩) hexists h)
    (fun _ _ hc => hc.2) fun _ _ _ _ hq => hq

theorem truthful_of_responds (question : CopyQuestion ν) (w : Roots ν)
    (answer : CopyAnswer question) (w' : Roots ν) (hexists : w.targetExists = true)
    (h : WorkerResponds host environment sha256 journal (.copy question) w answer w') :
    Truthful sha256 (copyView host environment journal) question w.disk answer w'.disk := by
  cases question with
  | targetExists =>
      obtain ⟨rfl, rfl⟩ := h
      exact ⟨rfl, hexists⟩
  | _ => exact h.2.2

omit [OsName ν] in
theorem quiet_copying {α : Type} {manifest : DataMigrationManifest ν}
    {p : Lib.Process DataMigrationJournal (@CopyAnswer ν) α}
    (hp : p.Within (SameRun journal) (CopySaves journal manifest)) :
    (copying p).Within (SameRun journal) (Quiet journal) :=
  within_widen hp fun _ hasked => hasked.2

omit [OsName ν] in
theorem quiet_save :
    (copying (save (journalFormat host) : CopyProcess ν Unit).run).Within (SameRun journal)
      (Quiet journal) :=
  quiet_copying (@within_save ν journal ⟨[], 0, 0⟩ host)

/-- **Saving, in a target that is there.** -/
theorem save_quietly {s : DataMigrationJournal} (hs : SameRun journal s) (h : Before journal w₀ w)
    (hexists : w.targetExists = true) :
    Quietly host environment sha256 journal w₀
      (fun _ w' => w'.targetExists = true ∧ Recorded journal w'.disk.target)
      (ExceptT.mk (copying (save (journalFormat host)).run)) s w := by
  have hquiet : Keeps (WorkerResponds host environment sha256 journal)
      (fun _ w => Before journal w₀ w) (fun _ s' _ => SameRun journal s')
      (copying (save (journalFormat host)).run) s w := keeps_quiet quiet_save hs h
  have hsaved : Keeps (WorkerResponds host environment sha256 journal)
      (fun _ w => w.targetExists = true) (fun r s' w' => Saved host s r s' w'.disk)
      (copying (save (journalFormat host)).run) s w :=
    keeps_copying truthful_of_responds (save_saved s w.disk) hexists
  refine (hquiet.and hsaved).mono (fun _ _ hc => hc.1) fun r s' w' hc hq => ⟨hq.1, fun u hr => ?_⟩
  obtain ⟨_, _, htarget⟩ := hq.2.2 (by rw [hr])
  exact ⟨hc.2, s.toVecPretty, s.wrapped, htarget,
    DataMigrationJournal.fromSlice_toVecPretty hs.hyphenated, hs.wrapped⟩

/-- What a worker has before it moves the pointer. -/
structure Verified (sha256 : Bytes → Text) (journal : DataMigrationJournal) (w₀ w : Roots ν) :
    Prop where
  targetExists : w.targetExists = true
  recorded : Recorded journal w.disk.target
  complete : Complete sha256 w₀ w

/-- A copy reports the migration whose journal it keeps. -/
theorem copyAndVerify_migrationId (request : CopyAndVerifyRequest ν)
    {R : (question : CopyQuestion ν) → Disk ν → CopyAnswer question → Disk ν → Prop}
    (s : DataMigrationJournal) (d : Disk ν) :
    (copyAndVerify request).Keeps R (fun _ _ => True)
      (fun r s' _ => ∀ verified, r = .ok verified → verified.migrationId = s'.migrationId) s d := by
  let Q (r : AppResult (VerifiedMigration ν)) (s' : DataMigrationJournal) (_ : Disk ν) : Prop :=
    ∀ verified, r = .ok verified → verified.migrationId = s'.migrationId
  have herror : ∀ (e : AppError) s' d', Q (.error e) s' d' := fun e s' d' verified he => by cases he
  have hpart : ∀ {β : Type} {p : CopyProcess ν β} {f : β → CopyProcess ν (VerifiedMigration ν)}
      (s : DataMigrationJournal) (d : Disk ν),
      (∀ b s' d', Keeps R (fun _ _ => True) Q (f b).run s' d') →
      Keeps R (fun _ _ => True) Q (p >>= f).run s d :=
    fun s d h => keeps_part (keeps_trivial _ s d) (fun b s' d' _ _ => h b s' d')
      fun e s' d' _ _ => herror e s' d'
  have hinner : Keeps R (fun _ _ => True) Q (copyAndVerifyInner request).run s d := by
    unfold copyAndVerifyInner
    iterate 7 refine hpart _ _ fun _ _ _ => ?_
    refine ⟨trivial, trivial, fun verified hok => ?_⟩
    obtain rfl := Except.ok.inj hok
    rfl
  refine keeps_bind (hinner.imp fun r s' d' _ hr => ?_)
  cases r with
  | ok verified => exact ⟨trivial, hr⟩
  | error e =>
      exact keeps_bind ((keeps_trivial _ _ _).imp fun _ _ _ _ _ => ⟨trivial, herror e _ d'⟩)

/-- **A copy that reports success has everything of the source.** -/
theorem copyAndVerify_quietly {s : DataMigrationJournal} (hs : SameRun journal s)
    (h : Before journal w₀ w) {source : Text}
    {checked : DataMigrationPreview × DataMigrationManifest ν}
    (hchecked : Checked host environment sha256 source journal.target w₀ checked w)
    (hrecorded : Recorded journal w.disk.target) :
    Quietly host environment sha256 journal w₀
      (fun verified w' => verified.migrationId = journal.migrationId
        ∧ Verified sha256 journal w₀ w')
      (ExceptT.mk (copying (copyAndVerify (copyRequest host environment checked.1 checked.2))))
      s w := by
  let request := copyRequest host environment checked.1 checked.2
  obtain ⟨tree, root, hnamed, hlook, hscan⟩ := hchecked.lists
  have hwithin : (copyAndVerify request).Within (SameRun journal)
      (CopySaves journal checked.2) := @within_copyAndVerify _ _ _ host request rfl
  have hR : ∀ question w answer w', w.targetExists = true →
      WorkerResponds host environment sha256 journal (.copy question) w answer w' →
      Responds sha256 request Undisturbed question w.disk answer w'.disk := by
    intro question w answer w' _ hresponds
    have htarget : (copyView host environment journal).target = request.target := by
      show host.components ((host.canonicalize journal.target).getD journal.target) = _
      rw [hchecked.target]
      rfl
    exact responds_congr (by rfl) htarget (copy_responds hresponds).2.2
  have hverified : (copyAndVerify request).Keeps (Responds sha256 request Undisturbed)
      (fun _ _ => True) (fun r _ d => VerifiedTarget sha256 request r d) s w.disk := by
    refine keeps_iff.mpr fun p' s' d' hreach => ⟨trivial, fun r hr verified hok => ?_⟩
    rw [hr, hok] at hreach
    exact copyAndVerify_ok hreach
  have hkept : (copyAndVerify request).Keeps (Responds sha256 request Undisturbed)
      (fun _ _ => True) (fun _ _ d => Recorded journal d.target) s w.disk :=
    (keeps_of_within hwithin (recorded_target hnamed hscan) hs hrecorded).mono
      (fun _ _ _ => trivial) fun _ _ _ hc _ => hc.2
  have hquiet : Keeps (WorkerResponds host environment sha256 journal)
      (fun _ w => Before journal w₀ w) (fun _ s' _ => SameRun journal s')
      (copying (copyAndVerify request)) s w := keeps_quiet (quiet_copying hwithin) hs h
  have hreported : (copyAndVerify request).Keeps (Responds sha256 request Undisturbed)
      (fun _ _ => True)
      (fun r s' _ => ∀ verified, r = .ok verified → verified.migrationId = s'.migrationId)
      s w.disk := copyAndVerify_migrationId request s w.disk
  refine (hquiet.and (keeps_copying hR ((hverified.and hkept).and hreported)
    hchecked.targetExists)).mono (fun _ _ hc => hc.1)
    fun r s' w' hc hq => ⟨hq.1, fun verified hr => ?_⟩
  obtain ⟨⟨hverified, hkept⟩, hreported⟩ := hq.2
  refine ⟨(hreported verified hr).trans hq.1.migrationId, hc.2, hkept, fun path hmigrated => ?_⟩
  rw [entries_of_manifest (hverified verified hr) hscan w'.targetNamed hnamed hmigrated,
    hlook path hmigrated.ne_journal]

theorem markerPath_ne_journalPath : (markerPath : List ν) ≠ journalPath := by
  intro h
  have hnames := congrArg OsName.toStringLossy (List.singleton_inj.mp h)
  rw [OsName.toStringLossy_ofText, OsName.toStringLossy_ofText] at hnames
  exact absurd hnames (by decide +kernel)

theorem Migrated.ne_marker {path : List ν} (h : Migrated path) : path ≠ markerPath := by
  rintro rfl
  obtain ⟨name, hname, hfile⟩ := h
  obtain rfl : OsName.ofText migrationCompleteFile = name := Option.some.inj hname
  exact hfile (Or.inr (OsName.toStringLossy_ofText _))

/-- What is written into the target at another path than these is not seen. -/
theorem Verified.written (h : Verified sha256 journal w₀ w) {path : List ν} {payload : Bytes}
    (hjournal : path ≠ journalPath) (hplain : ∀ other, Migrated other → other ≠ path)
    (hexists : w'.targetExists = w.targetExists)
    (hwrite : w.disk.target.writeFile path payload = some w'.disk.target) :
    Verified sha256 journal w₀ w' where
  targetExists := hexists.trans h.targetExists
  recorded := by
    obtain ⟨saved, journal', hlook, hread⟩ := h.recorded
    refine ⟨saved, journal', ?_, hread⟩
    rw [Node.look_writeFile hwrite, if_neg hjournal.symm, hlook]
  complete other hmigrated := by
    rw [Node.look_writeFile hwrite, if_neg (hplain other hmigrated)]
    exact h.complete other hmigrated

/-- A tree with a marker of this migration. -/
def Marked (host : Host) (journal : DataMigrationJournal) (tree : Node ν Bytes) : Prop :=
  ∃ marker : MigrationCompleteMarker, marker.migrationId = journal.migrationId
    ∧ host.canonicalize journal.source = some marker.previousRoot
    ∧ tree.look markerPath = some (.file marker.toVecPretty)

theorem writeCompleteMarker_quietly {s : DataMigrationJournal} (hs : SameRun journal s)
    (h : Before journal w₀ w) {preview : DataMigrationPreview}
    (hsource : host.canonicalize journal.source = some preview.source)
    {verified : VerifiedMigration ν} (hmarked : verified.migrationId = journal.migrationId)
    (hverified : Verified sha256 journal w₀ w) :
    Quietly host environment sha256 journal w₀
      (fun _ w' => Verified sha256 journal w₀ w' ∧ Marked host.toHost journal w'.disk.target)
      (writeCompleteMarker preview verified) s w := by
  refine keeps_answer h fun now w₁ hnow => ?_
  obtain rfl := now_responds hnow
  refine ⟨h, fun answer w₂ hwritten => ?_⟩
  refine ⟨h.step (.writeMarker _) trivial w₁ answer w₂ hwritten, hs, fun u hok => ?_⟩
  obtain rfl : answer = .ok u := hok
  refine ⟨hverified.written markerPath_ne_journalPath (fun _ h => h.ne_marker)
    hwritten.1.targetExists hwritten.2, completeMarker preview verified now, hmarked, hsource, ?_⟩
  rw [Node.look_writeFile hwritten.2, if_pos rfl]

/-- **The work up to the marker.** -/
theorem copyToTarget_quietly {s journal' : DataMigrationJournal} (hs : SameRun journal s)
    (hsame : SameRun journal journal') (h : Before journal w₀ w) :
    Quietly host environment sha256 journal w₀
      (fun target w' => host.canonicalize journal.target = some target
        ∧ Verified sha256 journal w₀ w' ∧ Marked host.toHost journal w'.disk.target)
      (copyToTarget host environment journal') s w := by
  refine quietly_tryAsk (by trivial) hs h fun _ w _ hwaited _ h => ?_
  refine quietly_then (preflightOrRetry_quietly hs h journal'.source journal'.target)
    fun checked s w hs h hchecked => ?_
  rw [hsame.source, hsame.target] at hchecked
  refine quietly_part (within_inquire (by trivial)) hs h fun now s w' hs h hstays => ?_
  refine quietly_part (quiet_setWorkerJournal fun _ hsame => hsame.restarted _ _ now) hs h
    fun _ s w'' hs h hstays' => ?_
  refine quietly_then (save_quietly hs h (hstays' (hstays hchecked.targetExists)))
    fun _ s w hs h hsaved => ?_
  refine quietly_then (copyAndVerify_quietly hs h
    ⟨hchecked.source, hchecked.target, hsaved.1, hchecked.lists⟩ hsaved.2)
    fun verified s w hs h hverified => ?_
  refine quietly_then (writeCompleteMarker_quietly hs h hchecked.source hverified.1 hverified.2)
    fun _ s w hs h hmarked => ?_
  exact ⟨h, yields_ok hs ⟨hchecked.target, hmarked⟩⟩

end Copied

/-! ## §5. The pointer, and what comes behind it. -/

section Pointer

variable [OsName ν] {host : MigrationHost ν} {environment : MigrationEnvironment ν}
  {sha256 : Bytes → Text} {journal : DataMigrationJournal} {installation : Installation}
  {w₀ w w' : Roots ν}

theorem Before.safe (hpoints : host.PointsTo installation w₀.pointers journal.source)
    (h : Before journal w₀ w) : Safe host.toHost journal installation sha256 w₀ w :=
  ⟨h.source, h.recorded, .inl (h.pointers ▸ hpoints)⟩

/-- What the worker asks once the pointer is moved, or the work has failed. -/
def Saving (journal : DataMigrationJournal) : WorkerQuestion ν → Prop
  | .copy question => CopySaves journal { entries := [], fileCount := 0, totalBytes := 0 } question
  | .restart => True
  | _ => False

omit [OsName ν] in
theorem wary_of_saving {question : WorkerQuestion ν} (h : Saving journal question) :
    Wary question := by
  cases question with
  | copy question => exact h.1
  | restart => trivial
  | _ => exact h.elim

/-- **Saving a journal keeps the roots safe.** -/
theorem safe_saving (question : WorkerQuestion ν) (hsaving : Saving journal question) (w : Roots ν)
    (answer : WorkerAnswer question) (w' : Roots ν)
    (hresponds : WorkerResponds host environment sha256 journal question w answer w')
    (h : Safe host.toHost journal installation sha256 w₀ w) :
    Safe host.toHost journal installation sha256 w₀ w' := by
  have huntouched : Untouched w w' := Untouched.step question (wary_of_saving hsaving) w answer w'
    hresponds ⟨rfl, rfl, fun _ _ => rfl, fun _ _ => rfl⟩
  cases question with
  | restart =>
      obtain rfl : w' = w := hresponds
      exact h
  | copy question =>
      obtain ⟨hpointers, hexists, hdisk⟩ := copy_responds hresponds
      refine ⟨h.source.step question w.disk answer w'.disk hdisk,
        recorded_source hsaving.2 hdisk h.recorded, ?_⟩
      rcases h.settled with hpoints | ⟨hpoints, hthere, hrecorded, hcomplete⟩
      · exact .inl (hpointers ▸ hpoints)
      · -- of the target, only the journal may change
        have hempty : scanManifest sha256 environment [] (.dir []) = .ok ⟨[], 0, 0⟩ := rfl
        have hrecorded' : Recorded journal w'.disk.target :=
          recorded_target .empty hempty question hsaving w.disk answer w'.disk hdisk hrecorded
        refine .inr ⟨hpointers ▸ hpoints, hexists.trans hthere, hrecorded',
          fun path hmigrated => ?_⟩
        rw [huntouched.target path hmigrated.ne_journal]
        exact hcomplete path hmigrated
  | _ => exact hsaving.elim

/-- A part that only saves journals. -/
theorem keeps_saving {α : Type} {p : Lib.Process DataMigrationJournal (@WorkerAnswer ν) α}
    (hp : p.Within (SameRun journal) (Saving journal)) {s : DataMigrationJournal}
    (hs : SameRun journal s) (h : Safe host.toHost journal installation sha256 w₀ w) :
    p.Keeps (WorkerResponds host environment sha256 journal)
      (fun _ w => Safe host.toHost journal installation sha256 w₀ w)
      (fun _ s' _ => SameRun journal s') s w :=
  (keeps_of_within hp safe_saving hs h).mono (fun _ _ hc => hc.2) fun _ _ _ hc _ => hc.1

omit [OsName ν] in
theorem saving_copying {α : Type} {p : Lib.Process DataMigrationJournal (@CopyAnswer ν) α}
    (hp : p.Within (SameRun journal)
      (CopySaves journal { entries := [], fileCount := 0, totalBytes := 0 })) :
    (copying p).Within (SameRun journal) (Saving journal) :=
  within_widen hp fun _ hasked => hasked

omit [OsName ν] in
/-- The pointer of a root of this mode fits the installation. -/
theorem pointerOf_fits (hprepared : Prepared host.toHost journal installation)
    {pointer : RuntimeDataRootPointer}
    (hpointer : pointerOf installation.defaultRoot journal.sourceMode = .ok pointer)
    (target : Text) : host.Fits installation (pointer.mode host.toHost target) target := by
  obtain ⟨hfree, hmode⟩ := hprepared.fits
  refine ⟨hfree, ?_⟩
  have hportable : installation.portable = true →
      host.Fits installation ((RuntimeDataRootPointer.portable installation.defaultRoot).mode
        host.toHost target) target := by
    intro hportable
    refine ⟨hfree, ?_⟩
    unfold RuntimeDataRootPointer.mode
    dsimp only
    by_cases hsame : host.samePath target installation.defaultRoot = true
    · rw [if_pos hsame]
      exact ⟨hportable, hprepared.defaultRoot, Host.runtimeKey_of_samePath hsame⟩
    · rw [if_neg hsame]
      exact hportable
  cases hsource : journal.sourceMode with
  | environment | needsSelection =>
      rw [hsource] at hpointer
      cases hpointer
  | platform | registry =>
      rw [hsource] at hpointer hmode
      obtain rfl := Except.ok.inj hpointer
      exact hmode
  | portableCustom =>
      rw [hsource] at hpointer hmode
      obtain rfl := Except.ok.inj hpointer
      exact (hportable hmode).mode
  | portableDefault =>
      rw [hsource] at hpointer hmode
      obtain rfl := Except.ok.inj hpointer
      exact (hportable hmode.1).mode

/-- **The pointer is moved to a target that has everything.** -/
theorem safe_committed (hcanonical : host.Canonical)
    (hprepared : Prepared host.toHost journal installation)
    {pointer : RuntimeDataRootPointer}
    (hpointer : pointerOf installation.defaultRoot journal.sourceMode = .ok pointer)
    (hpoints : host.PointsTo installation w₀.pointers journal.source) {target : Text}
    (htarget : host.canonicalize journal.target = some target) (h : Before journal w₀ w)
    (hverified : Verified sha256 journal w₀ w) {answer : AppResult Unit}
    (hsaved : w' = { w with pointers := w'.pointers } ∧ PointerSaved
      (pointer.mode host.toHost target) target w.pointers answer w'.pointers) :
    Safe host.toHost journal installation sha256 w₀ w' := by
  obtain ⟨hw, hsaved⟩ := hsaved
  have hdisk : w'.disk = w.disk := by rw [hw]
  have hexists : w'.targetExists = w.targetExists := by rw [hw]
  have hmoved : w'.pointers = w.pointers.saved target (pointer.mode host.toHost target) →
      Safe host.toHost journal installation sha256 w₀ w' := by
    intro hpointers
    have htold := Host.resolvePointers_saved (pointerOf_fits hprepared hpointer target)
      (hcanonical.absolute _ _ htarget) w.pointers
    rw [← hpointers] at htold
    refine ⟨by rw [hdisk]; exact h.source, by rw [hdisk]; exact h.recorded, .inr ?_⟩
    refine ⟨htold.congr (hcanonical.runtimeKey htarget), hexists.trans hverified.targetExists, ?_⟩
    rw [hdisk]
    refine ⟨hverified.recorded, fun path hmigrated => ?_⟩
    rw [hdisk]
    exact hverified.complete path hmigrated
  cases answer with
  | ok u => exact hmoved hsaved
  | error e =>
      rcases hsaved with hsame | hsaved
      · obtain rfl : w' = w := by rw [hw, hsame]
        exact h.safe hpoints
      · exact hmoved hsaved

/-- **The work, wherever it stops.** -/
theorem migrate_keeps (hcanonical : host.Canonical)
    (hprepared : Prepared host.toHost journal installation) {pointer : RuntimeDataRootPointer}
    (hpointer : pointerOf installation.defaultRoot journal.sourceMode = .ok pointer)
    (hpoints : host.PointsTo installation w₀.pointers journal.source)
    {s journal' : DataMigrationJournal} (hs : SameRun journal s) (hsame : SameRun journal journal')
    (h : Before journal w₀ w) :
    Keeps (WorkerResponds host environment sha256 journal)
      (fun _ w => Safe host.toHost journal installation sha256 w₀ w)
      (fun _ s' _ => SameRun journal s') (migrate host environment pointer journal').run s w := by
  refine keeps_part (((copyToTarget_quietly hs hsame h).mono (fun _ _ hb => hb.safe hpoints)
    (fun r s' w' hb hy => (⟨hb, hy⟩ : Before journal w₀ w' ∧ _)))) (fun target s w hsafe hb => ?_)
    fun e s w _ hb => hb.2.1
  obtain ⟨h, hs, hfound⟩ := hb
  obtain ⟨htarget, hverified, -⟩ := hfound target rfl
  refine keeps_part (?_ : Keeps _ _ (fun _ s' _ => SameRun journal s') _ s w)
    (fun _ s w hsafe hs => ?_) fun _ _ _ _ hs => hs
  · refine keeps_conclude hsafe (fun _ _ => ?_) fun _ _ => hs
    refine ⟨hsafe, fun answer w' hsaved => ?_⟩
    exact ⟨safe_committed hcanonical hprepared hpointer hpoints htarget h hverified hsaved, hs⟩
  · refine keeps_part (keeps_saving (saving_copying within_transition) hs hsafe)
      (fun _ s w hsafe hs => ?_) fun _ _ _ _ hs => hs
    exact keeps_saving (saving_copying within_transition) hs hsafe

/-- The journal of the source is one of this migration. -/
theorem validateWorkerJournal_keeps {directory fileName : Text}
    (hdirectory : host.runtimeKey directory = host.runtimeKey journal.source)
    (s : DataMigrationJournal) (h : Before journal w₀ w) :
    Keeps (WorkerResponds host environment sha256 journal) (fun _ w => Before journal w₀ w)
      (fun r _ _ => ∀ journal', r = .ok journal' → SameRun journal journal')
      (validateWorkerJournal host directory fileName : WorkerProcess ν _).run s w := by
  have herror : ∀ e journal', (.error e : AppResult DataMigrationJournal) = .ok journal' →
      SameRun journal journal' := fun _ _ he => by cases he
  refine keeps_conclude h (fun _ _ => ?_) fun e _ => herror e
  refine keeps_tryAsk h (fun payload w₁ journal' hread hload => ?_)
    fun payload w₁ e hread _ => ⟨hread.1 ▸ h, herror e⟩
  obtain ⟨rfl, hread⟩ := hread
  have hsame : SameRun journal journal' := by
    cases payload with
    | error e => cases hload
    | ok payload => exact h.recorded.loaded (hread _ (treeAt_source hdirectory) payload rfl) hload
  refine keeps_conclude h (fun _ _ => ?_) fun e _ => herror e
  refine keeps_conclude h (fun _ _ => ?_) fun e _ => herror e
  exact ⟨h, fun _ heq => Except.ok.inj heq ▸ hsame⟩

theorem runWorkerWith_keeps (hcanonical : host.Canonical)
    (hprepared : Prepared host.toHost journal installation) {pointer : RuntimeDataRootPointer}
    (hpointer : pointerOf installation.defaultRoot journal.sourceMode = .ok pointer)
    (hpoints : host.PointsTo installation w₀.pointers journal.source) {directory fileName : Text}
    (hdirectory : host.runtimeKey directory = host.runtimeKey journal.source)
    (s : DataMigrationJournal) (h : Before journal w₀ w) :
    Keeps (WorkerResponds host environment sha256 journal)
      (fun _ w => Safe host.toHost journal installation sha256 w₀ w) (fun _ _ _ => True)
      (runWorkerWith host environment directory fileName pointer).run s w := by
  refine keeps_part ((validateWorkerJournal_keeps hdirectory s h).mono
    (fun _ _ hb => hb.safe hpoints)
    (fun r s' w' hb hr => (⟨hb, hr⟩ : Before journal w₀ w' ∧ _))) (fun journal' s w _ hb => ?_)
    fun _ _ _ _ _ => trivial
  have hsame := hb.2 journal' rfl
  have hset : Keeps (WorkerResponds host environment sha256 journal)
      (fun _ w => Safe host.toHost journal installation sha256 w₀ w)
      (fun _ s' w' => Before journal w₀ w' ∧ SameRun journal s')
      (atomic fun _ => ((), journal')) s w :=
    ⟨hb.1.safe hpoints, hb.1.safe hpoints, hb.1, hsame⟩
  refine keeps_lifted hset fun _ s w _ hb => ?_
  refine keeps_lifted (migrate_keeps hcanonical hprepared hpointer hpoints hb.2 hsame hb.1)
    fun result s w hsafe hs => ?_
  have hrestart : ∀ {phase : DataMigrationPhase} {s : DataMigrationJournal} {w : Roots ν},
      Safe host.toHost journal installation sha256 w₀ w →
      Keeps (WorkerResponds host environment sha256 journal)
        (fun _ w => Safe host.toHost journal installation sha256 w₀ w) (fun _ _ _ => True)
        (do tryAsk .restart id; return phase : WorkerProcess ν DataMigrationPhase).run s w := by
    intro phase s w hsafe
    refine keeps_tryAsk hsafe (fun answer w' _ hw _ => ?_) fun answer w' e hw _ => ?_
    · obtain rfl : w' = w := hw
      exact ⟨hsafe, trivial⟩
    · obtain rfl : w' = w := hw
      exact ⟨hsafe, trivial⟩
  cases result with
  | ok u => exact hrestart hsafe
  | error error =>
      exact keeps_lifted (keeps_saving (saving_copying (within_recordFailure error)) hs hsafe)
        fun _ s w hsafe _ => hrestart hsafe

/-- **Wherever the worker stops, the roots are safe.** -/
theorem runSystemWorker_keeps (hcanonical : host.Canonical)
    (hprepared : Prepared host.toHost journal installation)
    (hrecorded : Recorded journal w₀.disk.source)
    (hpoints : host.PointsTo installation w₀.pointers journal.source) {directory fileName : Text}
    (hdirectory : host.runtimeKey directory = host.runtimeKey journal.source)
    (s : DataMigrationJournal) :
    Keeps (WorkerResponds host environment sha256 journal)
      (fun _ w => Safe host.toHost journal installation sha256 w₀ w) (fun _ _ _ => True)
      (runSystemWorker host environment installation.defaultRoot directory fileName).run s w₀ := by
  have hbefore : Before journal w₀ w₀ := ⟨⟨w₀.sourceNamed, fun _ _ => rfl⟩, hrecorded, rfl⟩
  refine keeps_part ((validateWorkerJournal_keeps hdirectory s hbefore).mono
    (fun _ _ hb => hb.safe hpoints)
    (fun r s' w' hb hr => (⟨hb, hr⟩ : Before journal w₀ w' ∧ _))) (fun journal' s w hsafe hb => ?_)
    fun _ _ _ _ _ => trivial
  have hsame := hb.2 journal' rfl
  refine keeps_conclude hsafe (fun pointer hpointer => ?_) fun _ _ => trivial
  rw [hsame.sourceMode] at hpointer
  exact runWorkerWith_keeps hcanonical hprepared hpointer hpoints hdirectory s hb.1

/-- Starts of the program, each of which may be stopped anywhere. -/
def Restarted (host : Host) (journal : DataMigrationJournal) (installation : Installation) :
    Roots ν → Roots ν → Prop :=
  Relation.ReflTransGen fun w w' => ∃ p, ReachesWith (StartResponds host journal)
    ((host.resolveRuntimeDataRoot installation).run, (), w) (p, (), w')

theorem Restarted.safe (hprepared : Prepared host.toHost journal installation)
    (h : Safe host.toHost journal installation sha256 w₀ w)
    (hstarts : Restarted host.toHost journal installation w w') :
    Safe host.toHost journal installation sha256 w₀ w' := by
  induction hstarts with
  | refl => exact h
  | tail _ hstart ih =>
      obtain ⟨p, hreach⟩ := hstart
      exact (keeps_iff.mp (resolveRuntimeDataRoot_keeps hprepared ih) _ _ _ hreach).1.1

/-- **A migration loses nothing, wherever it stops**: after any number of starts, the next one
that comes up uses the old root with its files, or the new one with all of them. -/
theorem migration_loses_nothing (hcanonical : host.Canonical)
    (hprepared : Prepared host.toHost journal installation)
    (hrecorded : Recorded journal w₀.disk.source)
    (hpoints : host.PointsTo installation w₀.pointers journal.source) {directory fileName : Text}
    (hdirectory : host.runtimeKey directory = host.runtimeKey journal.source)
    {s s' : DataMigrationJournal} {w₁ w₂ : Roots ν}
    {p : Lib.Process DataMigrationJournal (@WorkerAnswer ν) (AppResult DataMigrationPhase)}
    (hworker : ReachesWith (WorkerResponds host environment sha256 journal)
      ((runSystemWorker host environment installation.defaultRoot directory fileName).run, s, w₀)
      (p, s', w))
    (hstarts : Restarted host.toHost journal installation w w₁) {resolution : DataRootResolution}
    {u : Unit}
    (hstart : ReachesWith (StartResponds host.toHost journal)
      ((host.resolveRuntimeDataRoot installation).run, (), w₁) (.done (.ok resolution), u, w₂)) :
    Usable host.toHost journal installation sha256 w₀ w₂ resolution
      ∧ SourceKept w₀.disk w₂.disk := by
  have hsafe := (keeps_iff.mp (runSystemWorker_keeps hcanonical hprepared hrecorded hpoints
    hdirectory s) _ _ _ hworker).1
  have hend := keeps_iff.mp (resolveRuntimeDataRoot_keeps hprepared
    (Restarted.safe hprepared hsafe hstarts)) _ _ _ hstart
  exact ⟨hend.2 _ rfl resolution rfl, hend.1.1.source⟩

end Pointer

/-! ## §6. A migration to an empty directory. -/

attribute [local instance] textNames

def emptyTarget : Roots Text := preparedRoots (.dir []) .empty

def migrated : Roots Text := (runPrepared emptyTarget).2.2

/-- A start on a computer that works, to its end. -/
def startSample (w : Roots Text) : AppResult DataRootResolution × Unit × Roots Text :=
  runThrough (serveStart sampleHost.toHost preparedJournal)
    (sampleHost.resolveRuntimeDataRoot sampleInstallation).run () w

theorem startSample_reached (w : Roots Text) {a : AppResult DataRootResolution}
    (h : (startSample w).1 = a) :
    ReachesWith (StartResponds sampleHost.toHost preparedJournal)
      ((sampleHost.resolveRuntimeDataRoot sampleInstallation).run, (), w)
      (.done a, (startSample w).2.1, (startSample w).2.2) :=
  runThrough_ends serveStart_responds h

def targetResolution : DataRootResolution where
  source := .platform
  path := some "/t".toList
  isMutable := true

theorem sampleHost_canonical : sampleHost.Canonical where
  idempotent path path' h := by
    unfold sampleHost at *
    dsimp only at *
    split_ifs at h with hroot
    obtain rfl := Option.some.inj h
    rw [if_pos hroot]
  absolute path path' h := by
    unfold sampleHost at *
    dsimp only at *
    split_ifs at h with hroot
    obtain rfl := Option.some.inj h
    exact decide_eq_true hroot

theorem sample_prepared : Prepared sampleHost.toHost preparedJournal sampleInstallation where
  distinct := by decide +kernel
  absolute := by decide +kernel
  fits := ⟨rfl, rfl⟩
  defaultRoot := by decide +kernel

theorem emptyTarget_recorded : Recorded preparedJournal emptyTarget.disk.source := by
  have hid : Core.Tasks.isHyphenated preparedJournal.migrationId = true := by decide +kernel
  exact ⟨_, _, by rfl, DataMigrationJournal.fromSlice_toVecPretty hid, ⟨rfl, rfl, rfl, rfl, hid⟩⟩

theorem emptyTarget_points :
    sampleHost.PointsTo sampleInstallation emptyTarget.pointers preparedJournal.source :=
  ⟨.platform, "/s".toList, by decide, rfl, by rfl⟩

theorem startSample_ok : (startSample migrated).1 = .ok targetResolution := by decide +kernel

theorem sample_loses_nothing :
    Usable sampleHost.toHost preparedJournal sampleInstallation sampleHash emptyTarget
        (startSample migrated).2.2 targetResolution
      ∧ SourceKept emptyTarget.disk (startSample migrated).2.2.disk :=
  migration_loses_nothing sampleHost_canonical sample_prepared emptyTarget_recorded
    emptyTarget_points rfl (runPrepared_reached emptyTarget rfl) .refl
    (startSample_reached migrated startSample_ok)

end QingzhouSSH.Core.DataMigration
