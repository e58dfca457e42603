/-
  QingzhouSSH.Core.DataMigration.Completion — migrations that are completed.

  A worker that reports success has copied everything, marked the target, moved the pointer,
  and recorded that it has.  A start that can read this uses the target, and writes nothing.

  Main results:
    * `Switched.step`, `transition_saved` — what the worker keeps once the pointer is moved;
    * `runSystemWorker_finishes` — what a worker that reports success leaves behind;
    * `completed_is_used` — the starts behind it use the target;
    * `records_read_back` — what is saved is read back.
-/
import QingzhouSSH.Core.DataMigration.CrashSafety

namespace QingzhouSSH.Core.DataMigration

open QingzhouSSH.Core.DataRoot
open QingzhouSSH.Lib.FileTree
open QingzhouSSH.Lib.Process

variable {ν : Type} [OsName ν] {host : MigrationHost ν} {environment : MigrationEnvironment ν}
  {sha256 : Bytes → Text} {journal : DataMigrationJournal} {installation : Installation}
  {w₀ w w' : Roots ν}

/-! ## §1. Behind the pointer. -/

/-- The pointer is moved, to a target that is whole and marked. -/
structure Switched (host : Host) (journal : DataMigrationJournal) (installation : Installation)
    (sha256 : Bytes → Text) (w₀ w : Roots ν) : Prop where
  points : host.PointsTo installation w.pointers journal.target
  targetExists : w.targetExists = true
  complete : Complete sha256 w₀ w
  marked : Marked host journal w.disk.target

/-- Both journals are left out. -/
theorem Switched.kept (h : Switched host.toHost journal installation sha256 w₀ w)
    (huntouched : Untouched w w') : Switched host.toHost journal installation sha256 w₀ w' where
  points := by
    rw [huntouched.pointers]
    exact h.points
  targetExists := huntouched.targetExists.trans h.targetExists
  complete path hmigrated := by
    rw [huntouched.target path hmigrated.ne_journal]
    exact h.complete path hmigrated
  marked := by
    obtain ⟨marker, hid, hsource, hlook⟩ := h.marked
    exact ⟨marker, hid, hsource, by rw [huntouched.target _ markerPath_ne_journalPath, hlook]⟩

theorem Switched.step (question : WorkerQuestion ν) (hsaving : Saving journal question)
    (w : Roots ν) (answer : WorkerAnswer question) (w' : Roots ν)
    (hresponds : WorkerResponds host environment sha256 journal question w answer w')
    (h : Switched host.toHost journal installation sha256 w₀ w) :
    Switched host.toHost journal installation sha256 w₀ w' :=
  h.kept (Untouched.step question (wary_of_saving hsaving) w answer w' hresponds
    ⟨rfl, rfl, fun _ _ => rfl, fun _ _ => rfl⟩)

/-- What only saves journals of the migration. -/
theorem keeps_switched {α : Type} {p : Lib.Process DataMigrationJournal (@WorkerAnswer ν) α}
    (hp : p.Within (SameRun journal) (Saving journal)) {s : DataMigrationJournal}
    (hs : SameRun journal s) (h : Switched host.toHost journal installation sha256 w₀ w) :
    p.Keeps (WorkerResponds host environment sha256 journal)
      (fun s w => SameRun journal s ∧ Switched host.toHost journal installation sha256 w₀ w)
      (fun _ _ _ => True) s w :=
  keeps_of_within hp Switched.step hs h

/-- A transition that goes through has saved the phase in both roots. -/
theorem transition_saved {request : CopyAndVerifyRequest ν} (phase : DataMigrationPhase)
    (s : DataMigrationJournal) (d : Disk ν) :
    Keeps (Truthful sha256 request) (fun _ _ => True)
      (fun r s' d' => s'.phase = phase ∧ Saved host s' r s' d')
      (transition (journalFormat host) phase : CopyProcess ν Unit).run s d := by
  refine keeps_answer trivial fun now d' _ => ?_
  refine ⟨trivial, (save_saved (s.transition phase now) d').imp fun r s' d'' _ hsaved => ?_⟩
  obtain ⟨rfl, hsaved⟩ := hsaved
  exact ⟨rfl, rfl, hsaved⟩

/-! ## §2. The end of a migration. -/

/-- The journal of a tree says that the migration is completed. -/
def RecordedCompleted (host : Host) (journal : DataMigrationJournal) (tree : Node ν Bytes) :
    Prop :=
  ∃ journal', SameRun journal journal' ∧ journal'.phase = .completed
    ∧ journal'.validate host.isAbsolute = .ok ()
    ∧ tree.look journalPath = some (.file journal'.toVecPretty)

/-- What a worker that reports success leaves behind. -/
structure Finished (host : Host) (journal : DataMigrationJournal) (installation : Installation)
    (sha256 : Bytes → Text) (w₀ w : Roots ν) : Prop
    extends Switched host journal installation sha256 w₀ w where
  recorded : RecordedCompleted host journal w.disk.target

/-- **The last transition.** -/
theorem completed_finishes {s : DataMigrationJournal} (hs : SameRun journal s)
    (h : Switched host.toHost journal installation sha256 w₀ w) :
    Keeps (WorkerResponds host environment sha256 journal) (fun _ _ => True)
      (fun r _ w' => r = .ok () → Finished host.toHost journal installation sha256 w₀ w')
      (copying (transition (journalFormat host) .completed).run) s w := by
  have hswitched : Keeps (WorkerResponds host environment sha256 journal)
      (fun s w => SameRun journal s ∧ Switched host.toHost journal installation sha256 w₀ w)
      (fun _ _ _ => True) (copying (transition (journalFormat host) .completed).run) s w :=
    keeps_switched (saving_copying within_transition) hs h
  have hsaved : Keeps (WorkerResponds host environment sha256 journal)
      (fun _ w => w.targetExists = true)
      (fun r s' w' => s'.phase = .completed ∧ Saved host s' r s' w'.disk)
      (copying (transition (journalFormat host) .completed).run) s w :=
    keeps_copying truthful_of_responds (transition_saved .completed s w.disk) h.targetExists
  refine (hswitched.and hsaved).mono (fun _ _ _ => trivial) fun r s' w' hc hq hok => ?_
  obtain ⟨hphase, -, hsaved⟩ := hq.2
  obtain ⟨hvalid, -, htarget⟩ := hsaved hok
  exact ⟨hc.1.2, s', hc.1.1, hphase, hvalid, htarget⟩

theorem migrate_finishes (hcanonical : host.Canonical)
    (hprepared : Prepared host.toHost journal installation) {pointer : RuntimeDataRootPointer}
    (hpointer : pointerOf installation.defaultRoot journal.sourceMode = .ok pointer)
    {s journal' : DataMigrationJournal} (hs : SameRun journal s) (hsame : SameRun journal journal')
    (h : Before journal w₀ w) :
    Keeps (WorkerResponds host environment sha256 journal) (fun _ _ => True)
      (fun r _ w' => r = .ok () → Finished host.toHost journal installation sha256 w₀ w')
      (migrate host environment pointer journal').run s w := by
  have herror : ∀ (e : AppError) (w' : Roots ν), (.error e : AppResult Unit) = .ok () →
      Finished host.toHost journal installation sha256 w₀ w' := fun e w' he => by cases he
  refine keeps_part ((copyToTarget_quietly hs hsame h).mono (fun _ _ _ => trivial)
    fun _ _ _ _ hy => hy) (fun target s w _ hyields => ?_) fun e _ w' _ _ => herror e w'
  obtain ⟨hs, hfound⟩ := hyields
  obtain ⟨htarget, hverified, hmarked⟩ := hfound target rfl
  let AllMoved (r : AppResult Unit) (s' : DataMigrationJournal) (w' : Roots ν) : Prop :=
    r = .ok () → SameRun journal s' ∧ Switched host.toHost journal installation sha256 w₀ w'
  have hcommit : Keeps (WorkerResponds host environment sha256 journal) (fun _ _ => True)
      AllMoved (pointer.commit host target).run s w := by
    refine keeps_conclude trivial (fun _ _ => ?_) fun e _ he => by cases he
    refine ⟨trivial, fun answer w' hsaved => ⟨trivial, fun hok => ⟨hs, ?_⟩⟩⟩
    obtain rfl : answer = .ok () := hok
    obtain ⟨hw, hpointers⟩ := hsaved
    have hdisk : w'.disk = w.disk := by rw [hw]
    have htold := Host.resolvePointers_saved (pointerOf_fits hprepared hpointer target)
      (hcanonical.absolute _ _ htarget) w.pointers
    rw [← show w'.pointers = _ from hpointers] at htold
    refine ⟨htold.congr (hcanonical.runtimeKey htarget), ?_, fun path hmigrated => ?_, ?_⟩
    · rw [hw]
      exact hverified.targetExists
    · rw [hdisk]
      exact hverified.complete path hmigrated
    · rw [hdisk]
      exact hmarked
  refine keeps_part hcommit (fun _ s w _ hmoved => ?_) fun e _ w' _ _ => herror e w'
  obtain ⟨hs, hswitched⟩ := hmoved rfl
  refine keeps_part ((keeps_switched (saving_copying within_transition) hs hswitched).mono
    (fun _ _ _ => trivial) fun _ _ _ hc _ => hc) (fun _ s w _ hc => ?_)
    fun e _ w' _ _ => herror e w'
  exact completed_finishes hc.1 hc.2

theorem runWorkerWith_finishes (hcanonical : host.Canonical)
    (hprepared : Prepared host.toHost journal installation) {pointer : RuntimeDataRootPointer}
    (hpointer : pointerOf installation.defaultRoot journal.sourceMode = .ok pointer)
    {directory fileName : Text}
    (hdirectory : host.runtimeKey directory = host.runtimeKey journal.source)
    (s : DataMigrationJournal) (h : Before journal w₀ w) :
    Keeps (WorkerResponds host environment sha256 journal) (fun _ _ => True)
      (fun r _ w' => r = .ok .completed →
        Finished host.toHost journal installation sha256 w₀ w')
      (runWorkerWith host environment directory fileName pointer).run s w := by
  refine keeps_part ((validateWorkerJournal_keeps hdirectory s h).mono (fun _ _ _ => trivial)
    (fun r s' w' hb hr => (⟨hb, hr⟩ : Before journal w₀ w' ∧ _))) (fun journal' s w _ hb => ?_)
    fun _ _ _ _ _ he => by cases he
  have hsame := hb.2 journal' rfl
  have hset : Keeps (WorkerResponds host environment sha256 journal) (fun _ _ => True)
      (fun _ s' w' => Before journal w₀ w' ∧ SameRun journal s')
      (atomic fun _ => ((), journal')) s w := ⟨trivial, trivial, hb.1, hsame⟩
  refine keeps_lifted hset fun _ s w _ hb => ?_
  refine keeps_lifted (migrate_finishes hcanonical hprepared hpointer hb.2 hsame hb.1)
    fun result s w _ hfinished => ?_
  cases result with
  | ok u =>
      refine keeps_tryAsk trivial (fun answer w' _ hw _ => ?_)
        fun answer w' e _ _ => ⟨trivial, fun he => by cases he⟩
      obtain rfl : w' = w := hw
      exact ⟨trivial, fun _ => hfinished rfl⟩
  | error error =>
      refine keeps_lifted (keeps_trivial _ s w) fun _ s w _ _ => ?_
      exact keeps_tryAsk trivial (fun _ _ _ _ _ => ⟨trivial, fun he => by cases he⟩)
        fun _ _ _ _ _ => ⟨trivial, fun he => by cases he⟩

/-- **What a worker that reports success leaves behind.** -/
theorem runSystemWorker_finishes (hcanonical : host.Canonical)
    (hprepared : Prepared host.toHost journal installation)
    (hrecorded : Recorded journal w₀.disk.source) {directory fileName : Text}
    (hdirectory : host.runtimeKey directory = host.runtimeKey journal.source)
    (s : DataMigrationJournal) :
    Keeps (WorkerResponds host environment sha256 journal) (fun _ _ => True)
      (fun r _ w' => r = .ok .completed →
        Finished host.toHost journal installation sha256 w₀ w')
      (runSystemWorker host environment installation.defaultRoot directory fileName).run s w₀ := by
  have hbefore : Before journal w₀ w₀ := ⟨⟨w₀.sourceNamed, fun _ _ => rfl⟩, hrecorded, rfl⟩
  refine keeps_part ((validateWorkerJournal_keeps hdirectory s hbefore).mono
    (fun _ _ _ => trivial) (fun r s' w' hb hr => (⟨hb, hr⟩ : Before journal w₀ w' ∧ _)))
    (fun journal' s w _ hb => ?_) fun _ _ _ _ _ he => by cases he
  have hsame := hb.2 journal' rfl
  refine keeps_conclude trivial (fun pointer hpointer => ?_) fun _ _ he => by cases he
  rw [hsame.sourceMode] at hpointer
  exact runWorkerWith_finishes hcanonical hprepared hpointer hdirectory s hb.1

/-! ## §3. The starts behind it. -/

/-- What is there can be read. -/
def Legible (host : Host) (journal : DataMigrationJournal) (w : Roots ν) :
    (question : StartQuestion) → StartAnswer question → Prop
  | .readPointers, answer => answer = .ok w.pointers
  | .readJournal root, answer => ∀ tree, w.treeAt host journal root = some tree → ∀ payload,
      tree.look journalPath = some (.file payload) → answer = .ok payload
  | .readMarker root, answer => ∀ tree, w.treeAt host journal root = some tree → ∀ payload,
      tree.look markerPath = some (.file payload) → answer = .ok payload
  | _, _ => True

/-- What a start is answered where everything can be read. -/
def LegibleResponds (host : Host) (journal : DataMigrationJournal) (question : StartQuestion)
    (w : Roots ν) (answer : StartAnswer question) (w' : Roots ν) : Prop :=
  StartResponds host journal question w answer w' ∧ Legible host journal w question answer

theorem validate_wrapped {isAbsolute : Text → Bool} {journal : DataMigrationJournal}
    (h : journal.validate isAbsolute = .ok ()) : journal.wrapped.validate isAbsolute = .ok () := by
  unfold DataMigrationJournal.validate at *
  have hschema : journal.schemaVersion = 1 := by
    by_contra hother
    rw [if_pos hother] at h
    cases h
  rw [if_neg (by simp [hschema])] at h
  rw [if_neg (by simp [DataMigrationJournal.wrapped, hschema])]
  exact h

/-- The journal of a finished migration, as it is read. -/
theorem loadJournal_finished {tree : Node ν Bytes}
    (h : RecordedCompleted host.toHost journal tree) {payload : Bytes}
    (hlook : tree.look journalPath = some (.file payload)) :
    ∃ journal', host.loadJournal payload = .ok journal' ∧ SameRun journal journal'
      ∧ journal'.phase = .completed := by
  obtain ⟨journal', hsame, hphase, hvalid, hsaved⟩ := h
  obtain rfl : payload = journal'.toVecPretty :=
    Leaf.file.inj (Option.some.inj (hlook.symm.trans hsaved))
  refine ⟨journal'.wrapped, ?_, hsame.wrapped, hphase⟩
  unfold Host.loadJournal
  rw [DataMigrationJournal.fromSlice_toVecPretty hsame.hyphenated]
  dsimp only
  rw [validate_wrapped hvalid]
  rfl

/-- Its marker is accepted. -/
theorem completionMarkerIsValid_marked (hcanonical : host.Canonical)
    {tree : Node ν Bytes} (h : Marked host.toHost journal tree) {payload : Bytes}
    (hlook : tree.look markerPath = some (.file payload)) {journal' : DataMigrationJournal}
    (hsame : SameRun journal journal') :
    host.completionMarkerIsValid (.ok payload) journal' = true := by
  obtain ⟨marker, hmarker, hsource, hsaved⟩ := h
  obtain rfl : payload = marker.toVecPretty :=
    Leaf.file.inj (Option.some.inj (hlook.symm.trans hsaved))
  unfold Host.completionMarkerIsValid
  dsimp only
  rw [MigrationCompleteMarker.fromSlice_toVecPretty (by
    rw [hmarker, ← hsame.migrationId]
    exact hsame.hyphenated)]
  have hroot := hcanonical.samePath hsource
  simp only [MigrationCompleteMarker.wrapped, hmarker, hsame.migrationId, hsame.source, hroot,
    decide_true, Bool.and_self]

omit [OsName ν] in
/-- A completed migration is not recovered from. -/
theorem recovery_completed {current : DataRootResolution} {journal' : DataMigrationJournal}
    (hphase : journal'.phase = .completed) (sourceIsDir : Bool) :
    host.migrationRecoveryResolution current journal' true sourceIsDir = .ok none := by
  unfold Host.migrationRecoveryResolution
  split
  next => rfl
  next root hpath =>
    split
    next => rfl
    next => rw [if_pos ⟨hphase, rfl⟩]

/-- **A start that can read everything ends in the target.** -/
theorem resolveRuntimeDataRoot_finished (hcanonical : host.Canonical)
    (hprepared : Prepared host.toHost journal installation)
    (h : Finished host.toHost journal installation sha256 w₀ w) :
    Keeps (LegibleResponds host.toHost journal) (fun _ w' => w' = w)
      (fun r _ _ => ∃ resolution root, r = .ok resolution ∧ resolution.path = some root
        ∧ host.runtimeKey root = host.runtimeKey journal.target)
      (host.resolveRuntimeDataRoot installation).run () w := by
  obtain ⟨source, root, hsource, hkey, hroot⟩ := h.points
  have htree := treeAt_target hprepared hkey h.targetExists
  obtain ⟨saved, -, -, -, hjournal⟩ := id h.recorded
  obtain ⟨marker, -, -, hmarker⟩ := id h.marked
  obtain ⟨loaded, hloaded, hsame, hphase⟩ := loadJournal_finished h.recorded hjournal
  have hvalid := completionMarkerIsValid_marked hcanonical h.marked hmarker hsame
  refine keeps_tryAsk rfl (fun pointers w₁ current hread hcurrent => ?_)
    fun pointers w₁ e hread herror => ?_
  all_goals obtain ⟨⟨rfl, -⟩, rfl⟩ := hread
  · obtain rfl := Except.ok.inj (hcurrent.symm.trans hroot)
    unfold Host.recoverRuntimeResolution
    refine keeps_answer rfl fun found w₂ hfound => ?_
    obtain ⟨⟨rfl, hfound⟩, -⟩ := hfound
    obtain rfl : found = true := (hfound _ htree).mpr ⟨_, hjournal⟩
    refine keeps_tryAsk rfl (fun payload w₃ journal' hread hload => ?_)
      fun payload w₃ e hread herror => ?_
    all_goals
      obtain ⟨⟨rfl, -⟩, hread⟩ := hread
      obtain rfl := hread _ htree _ hjournal
    · obtain rfl := Except.ok.inj (hload.symm.trans hloaded)
      refine keeps_answer rfl fun payload w₄ hread => ?_
      obtain ⟨⟨rfl, -⟩, hread⟩ := hread
      obtain rfl := hread _ htree _ hmarker
      refine keeps_answer rfl fun isDir w₅ hdir => ?_
      obtain rfl := hdir.1
      rw [hvalid]
      refine keeps_conclude rfl (fun recovered hrecovered => ?_) fun e herror => ?_
      · rw [recovery_completed hphase] at hrecovered
        obtain rfl := Except.ok.inj hrecovered
        exact ⟨rfl, _, root, rfl, rfl, hkey⟩
      · rw [recovery_completed hphase] at herror
        cases herror
    · cases hloaded.symm.trans herror
  · cases hroot.symm.trans herror

/-- Starts where everything can be read, each of which may be stopped anywhere. -/
def RestartedLegibly (host : Host) (journal : DataMigrationJournal) (installation : Installation) :
    Roots ν → Roots ν → Prop :=
  Relation.ReflTransGen fun w w' => ∃ p, ReachesWith (LegibleResponds host journal)
    ((host.resolveRuntimeDataRoot installation).run, (), w) (p, (), w')

/-- Such starts change nothing. -/
theorem RestartedLegibly.same (hcanonical : host.Canonical)
    (hprepared : Prepared host.toHost journal installation)
    (h : Finished host.toHost journal installation sha256 w₀ w)
    (hstarts : RestartedLegibly host.toHost journal installation w w') : w' = w := by
  induction hstarts with
  | refl => rfl
  | tail _ hstart ih =>
      obtain ⟨p, hreach⟩ := hstart
      rw [ih] at hreach
      exact (keeps_iff.mp (resolveRuntimeDataRoot_finished hcanonical hprepared h) _ _ _ hreach).1

/-- **A completed migration is used**: behind a worker that reports success, every start that
can read what is there comes up with the target, which has every file, and changes nothing. -/
theorem completed_is_used (hcanonical : host.Canonical)
    (hprepared : Prepared host.toHost journal installation)
    (hrecorded : Recorded journal w₀.disk.source) {directory fileName : Text}
    (hdirectory : host.runtimeKey directory = host.runtimeKey journal.source)
    {s s' : DataMigrationJournal} {w₁ w₂ : Roots ν}
    (hworker : ReachesWith (WorkerResponds host environment sha256 journal)
      ((runSystemWorker host environment installation.defaultRoot directory fileName).run, s, w₀)
      (.done (.ok .completed), s', w))
    (hstarts : RestartedLegibly host.toHost journal installation w w₁)
    {r : AppResult DataRootResolution} {u : Unit}
    (hstart : ReachesWith (LegibleResponds host.toHost journal)
      ((host.resolveRuntimeDataRoot installation).run, (), w₁) (.done r, u, w₂)) :
    w₂ = w ∧ Complete sha256 w₀ w ∧ ∃ resolution root, r = .ok resolution
      ∧ resolution.path = some root ∧ host.runtimeKey root = host.runtimeKey journal.target := by
  have hfinished := (keeps_iff.mp (runSystemWorker_finishes hcanonical hprepared hrecorded
    hdirectory s) _ _ _ hworker).2 _ rfl rfl
  obtain rfl := hstarts.same hcanonical hprepared hfinished
  obtain ⟨hsame, hend⟩ := keeps_iff.mp (resolveRuntimeDataRoot_finished hcanonical hprepared
    hfinished) _ _ _ hstart
  exact ⟨hsame, hfinished.complete, hend r rfl⟩

/-- **What is saved is read back**: journals, markers and pointers. -/
theorem records_read_back {journal : DataMigrationJournal} {marker : MigrationCompleteMarker}
    (hjournal : Core.Tasks.isHyphenated journal.migrationId = true)
    (hmarker : Core.Tasks.isHyphenated marker.migrationId = true) (pointer : DataRootPointer) :
    DataMigrationJournal.fromSlice journal.toVecPretty = some journal.wrapped
      ∧ MigrationCompleteMarker.fromSlice marker.toVecPretty = some marker.wrapped
      ∧ DataRootPointer.fromSlice pointer.toVecPretty
        = some { pointer with schemaVersion := pointer.schemaVersion % 2 ^ 32 } :=
  ⟨DataMigrationJournal.fromSlice_toVecPretty hjournal,
    MigrationCompleteMarker.fromSlice_toVecPretty hmarker, DataRootPointer.fromSlice_toVecPretty _⟩

/-! ## §4. A migration to an empty directory. -/

section Sample

attribute [local instance] textNames

theorem serveStart_legible (question : StartQuestion) (w : Roots Text) :
    LegibleResponds sampleHost.toHost preparedJournal question w
      (serveStart sampleHost.toHost preparedJournal question w).1
      (serveStart sampleHost.toHost preparedJournal question w).2 := by
  refine ⟨serveStart_responds question w, ?_⟩
  cases question with
  | readPointers => rfl
  | readJournal root | readMarker root =>
      intro tree htree payload hlook
      unfold serveStart
      dsimp only
      rw [htree]
      exact readFile_eq_ok.mpr hlook
  | _ => trivial

theorem runPrepared_completed : (runPrepared emptyTarget).1 = .ok .completed := by decide +kernel

theorem startSample_legible (w : Roots Text) :
    ReachesWith (LegibleResponds sampleHost.toHost preparedJournal)
      ((sampleHost.resolveRuntimeDataRoot sampleInstallation).run, (), w)
      (.done (startSample w).1, (startSample w).2.1, (startSample w).2.2) :=
  runThrough_reaches serveStart_legible _ _ _

theorem sample_is_used :
    (startSample migrated).2.2 = migrated ∧ Complete sampleHash emptyTarget migrated
      ∧ ∃ resolution root, (startSample migrated).1 = .ok resolution
        ∧ resolution.path = some root
        ∧ sampleHost.runtimeKey root = sampleHost.runtimeKey preparedJournal.target :=
  completed_is_used sampleHost_canonical sample_prepared emptyTarget_recorded rfl
    (runPrepared_reached emptyTarget runPrepared_completed) .refl (startSample_legible migrated)

theorem sample_read_back :
    DataMigrationJournal.fromSlice preparedJournal.toVecPretty = some preparedJournal.wrapped :=
  (@records_read_back preparedJournal ⟨preparedJournal.migrationId, [], 0, 0, 0⟩
    (by decide +kernel) (by decide +kernel) ⟨1, []⟩).1

end Sample

end QingzhouSSH.Core.DataMigration
