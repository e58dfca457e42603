/-
  QingzhouSSH.Core.Sftp.Transfer — uploading and downloading one file.

  The procedures act on the events they have sent and on their tracker of progress.
  What the server, the disk and the clock do are answers; so is a cancellation, which is
  an error of the action it interrupts.  An upload or a download that has failed removes
  its partial file, which nothing here depends on.
-/
import Mathlib.Algebra.Order.Ring.Unbundled.Rat
import QingzhouSSH.Domain.TransferJob
import QingzhouSSH.Lib.Process
import QingzhouSSH.Repositories.ExecutionRepository

namespace QingzhouSSH.Core.Sftp

open QingzhouSSH.Domain
open QingzhouSSH.Lib
open QingzhouSSH.Lib.Process
open QingzhouSSH.Repositories.ExecutionRepository (ExecutionStatus)

/-! ## §1. Verification. -/

inductive VerificationPolicy where
  | balanced
  | strict
  | transportOnly
  deriving Repr, DecidableEq

inductive VerificationStrategy where
  | remoteHash
  | sftpReread
  | transportAndSize
  deriving Repr, DecidableEq

def selectVerification : VerificationPolicy → Bool → VerificationStrategy
  | .transportOnly, _ => .transportAndSize
  | _, true => .remoteHash
  | .balanced, false => .transportAndSize
  | .strict, false => .sftpReread

/-! ## §2. Events and progress. -/

/-- The payloads of a transfer's events; of a result only what the queue reads. -/
inductive TransferEvent where
  | started (executionId : Uuid)
  | progress (phase : TransferPhase) (progress : TransferProgress)
  | fileProduced
  | finished (status : ExecutionStatus) (sha256 location : Option Text)
  | failed (category message : Text) (retryable : Bool)
  deriving DecidableEq

structure TransferOutcome where
  bytes : Nat
  sha256 : Text
  location : Text
  deriving DecidableEq

/-- The rates of a tracker, which it computes in floating point. -/
structure Rates where
  bytesPerSecond : Option Rat
  averageBytesPerSecond : Option Rat
  etaSeconds : Option Nat
  deriving DecidableEq

def emitIntervalMs : Int := 100

structure TransferProgressTracker where
  total : Option Nat
  transferred : Nat
  lastEmittedAt : Option Int
  phase : TransferPhase
  deriving DecidableEq

namespace TransferProgressTracker

def new (total : Option Nat) : TransferProgressTracker :=
  { total := total, transferred := 0, lastEmittedAt := none, phase := .transferring }

def snapshot (tracker : TransferProgressTracker) (rates : Rates) : TransferProgress :=
  { transferred := tracker.transferred, total := tracker.total,
    percent := (tracker.total.filter fun total => 0 < total).map fun total =>
      max 0 (min 100 ((tracker.transferred : Rat) / total * 100)),
    bytesPerSecond := rates.bytesPerSecond,
    averageBytesPerSecond := rates.averageBytesPerSecond, etaSeconds := rates.etaSeconds }

/-- Whether `sample` reports, once the count has been taken. -/
def reports (tracker : TransferProgressTracker) (now : Int) : Bool :=
  (tracker.total.any fun total => 0 < total && total ≤ tracker.transferred)
    || (match tracker.lastEmittedAt with
      | none => true
      | some last => emitIntervalMs ≤ now - last)

end TransferProgressTracker

/-- The events that have been sent, the tracker, and how the file is verified. -/
structure TransferState where
  events : List TransferEvent
  tracker : TransferProgressTracker
  strategy : Option VerificationStrategy
  deriving DecidableEq

def TransferState.send (event : TransferEvent) (s : TransferState) : TransferState :=
  { s with events := s.events ++ [event] }

def TransferState.initial : TransferState :=
  { events := [], tracker := .new none, strategy := none }

/-! ## §3. Procedures. -/

/-- What a transfer does outside. -/
inductive TransferAction where
  | createExecution
  | markRunning
  | registerExecution
  | recordEnd
  | recordFile
  | readRecord
  | validateRequest
  | openSftp
  | openFiles
  | moveBlock
  | flushFile
  | removeTarget
  | renamePartial
  deriving Repr, DecidableEq

inductive TransferQuestion where
  | attempt (action : TransferAction)
  | connect
  | hashAvailable
  | drawId
  | targetExists
  | localLength
  | remoteSize
  | localHash
  | remoteHash
  | blocks
  | now
  | rates

def TransferAnswer : TransferQuestion → Type
  | .attempt _ | .connect => AppResult Unit
  | .hashAvailable | .targetExists => AppResult Bool
  | .drawId => Uuid
  | .localLength => AppResult Nat
  | .remoteSize => AppResult (Option Nat)
  | .localHash => Text
  | .remoteHash => AppResult Text
  | .blocks => List Nat
  | .now => Int
  | .rates => Rates

abbrev PlainTransfer (α : Type) := Process TransferState TransferAnswer α

abbrev TransferProcess (α : Type) := ExceptT AppError PlainTransfer α

def attempt (action : TransferAction) : TransferProcess Unit :=
  Process.query (TransferQuestion.attempt action)

def hashAvailable : TransferProcess Bool := Process.query TransferQuestion.hashAvailable

def targetExists : TransferProcess Bool := Process.query TransferQuestion.targetExists

def localLength : TransferProcess Nat := Process.query TransferQuestion.localLength

def remoteSize : TransferProcess (Option Nat) := Process.query TransferQuestion.remoteSize

def remoteHash : TransferProcess Text := Process.query TransferQuestion.remoteHash

def emit (event : TransferEvent) : TransferProcess Unit :=
  Process.atomic fun s => (.ok (), s.send event)

def newTracker (total : Option Nat) : TransferProcess Unit :=
  Process.atomic fun s => (.ok (), { s with tracker := .new total })

def noteStrategy (strategy : VerificationStrategy) : TransferProcess Unit :=
  Process.atomic fun s => (.ok (), { s with strategy := some strategy })

/-- `TransferProgressTracker::sample`, and the event if there is one. -/
def TransferState.sample (transferred : Nat) (now : Int) (rates : Rates) (s : TransferState) :
    TransferState :=
  let tracker := { s.tracker with transferred := max transferred s.tracker.transferred }
  if tracker.reports now then
    { s with tracker := { tracker with lastEmittedAt := some now } }.send
      (.progress tracker.phase (tracker.snapshot rates))
  else { s with tracker := tracker }

/-- `TransferProgressTracker::change_phase` and its event. -/
def TransferState.changePhase (phase : TransferPhase) (now : Int) (rates : Rates)
    (s : TransferState) : TransferState :=
  let tracker := { s.tracker with phase := phase, lastEmittedAt := some now }
  { s with tracker := tracker }.send (.progress phase (tracker.snapshot rates))

def sample (transferred : Nat) : TransferProcess Unit := do
  let now ← ExceptT.lift (Process.query TransferQuestion.now)
  let rates ← ExceptT.lift (Process.query TransferQuestion.rates)
  Process.atomic fun s => (.ok (), s.sample transferred now rates)

def changePhase (phase : TransferPhase) : TransferProcess Unit := do
  let now ← ExceptT.lift (Process.query TransferQuestion.now)
  let rates ← ExceptT.lift (Process.query TransferQuestion.rates)
  Process.atomic fun s => (.ok (), s.changePhase phase now rates)

/-- The loop over the blocks of a file, which gives the number of bytes. -/
def moveBlocks : List Nat → Nat → TransferProcess Nat
  | [], transferred => pure transferred
  | block :: rest, transferred => do
      attempt .moveBlock
      sample (transferred + block)
      moveBlocks rest (transferred + block)

/-- The hash of the remote file, if it is compared. -/
def remoteHashFor : VerificationStrategy → TransferProcess (Option Text)
  | .transportAndSize => pure none
  | .remoteHash | .sftpReread => do
      let hash ← remoteHash
      pure (some hash)

/-- Both counts of bytes, in the order in which a message names them. -/
def sizeMessage (direction : TransferDirection) (remote own : Nat) : Text :=
  match direction with
  | .upload =>
      "上传文件大小不一致：本地 ".toList ++ showNat own ++ " 字节，远端 ".toList ++ showNat remote
        ++ " 字节".toList
  | .download =>
      "下载文件大小不一致：远端 ".toList ++ showNat remote ++ " 字节，本地 ".toList ++ showNat own
        ++ " 字节".toList

/-- The remote size agrees with what has been moved. -/
def compareSize (direction : TransferDirection) (strategy : VerificationStrategy)
    (remote : Option Nat) (own : Nat) : AppResult Unit :=
  match remote with
  | none =>
      if strategy = .transportAndSize then
        .error (.integrity (match direction with
          | .upload => "远端未返回上传文件大小".toList
          | .download => "远端未返回下载文件大小".toList))
      else .ok ()
  | some remote =>
      if remote ≠ own then .error (.integrity (sizeMessage direction remote own)) else .ok ()

/-- The remote hash, where there is one, agrees with the hash of what has been moved. -/
def compareHash (direction : TransferDirection) (remote : Option Text) (own : Text) :
    AppResult Unit :=
  match remote with
  | none => .ok ()
  | some remote =>
      if remote = own then .ok ()
      else
        .error (.integrity (match direction with
          | .upload =>
              "上传文件 SHA-256 不一致：本地 ".toList ++ own ++ "，远端 ".toList ++ remote
          | .download =>
              "下载文件 SHA-256 不一致：远端 ".toList ++ remote ++ "，本地 ".toList ++ own))

/-- A result that needs no step. -/
def ofResult {α : Type} (result : AppResult α) : TransferProcess α := ExceptT.mk (pure result)

/-- Replace the target by the partial file. -/
def putInPlace (overwrite : Bool) : TransferProcess Unit := do
  if overwrite then
    let found ← targetExists
    if found then attempt .removeTarget
  attempt .renamePartial

/-- `upload_to_partial`. -/
def uploadToPartial (remotePath : Text) (overwrite : Bool) (total : Nat)
    (strategy : VerificationStrategy) : TransferProcess TransferOutcome := do
  attempt .openFiles
  newTracker (some total)
  sample 0
  let blocks ← ExceptT.lift (Process.query TransferQuestion.blocks)
  let transferred ← moveBlocks blocks 0
  attempt .flushFile
  changePhase .verifying
  let localHash ← ExceptT.lift (Process.query TransferQuestion.localHash)
  let size ← remoteSize
  ofResult (compareSize .upload strategy size transferred)
  let hash ← remoteHashFor strategy
  ofResult (compareHash .upload hash localHash)
  changePhase .finalizing
  putInPlace overwrite
  pure { bytes := transferred, sha256 := localHash, location := remotePath }

/-- `sftp::upload`. -/
def sftpUpload (remotePath : Text) (overwrite : Bool) (policy : VerificationPolicy) :
    TransferProcess TransferOutcome := do
  attempt .validateRequest
  let available ← hashAvailable
  noteStrategy (selectVerification policy available)
  let total ← localLength
  attempt .openSftp
  let found ← targetExists
  if found && !overwrite then throw (.validation "远程目标文件已存在".toList)
  uploadToPartial remotePath overwrite total (selectVerification policy available)

/-- `download_to_partial`; the blocks come from the pipeline, or one by one. -/
def downloadToPartial (location : Text) (overwrite : Bool) (total : Option Nat)
    (strategy : VerificationStrategy) (expectedHash : Option Text) :
    TransferProcess TransferOutcome := do
  attempt .openFiles
  let blocks ← ExceptT.lift (Process.query TransferQuestion.blocks)
  let transferred ← moveBlocks blocks 0
  attempt .flushFile
  changePhase .verifying
  let actualHash ← ExceptT.lift (Process.query TransferQuestion.localHash)
  ofResult (compareSize .download strategy total transferred)
  ofResult (compareHash .download expectedHash actualHash)
  changePhase .finalizing
  putInPlace overwrite
  pure { bytes := transferred, sha256 := actualHash, location := location }

/-- `sftp::download`. -/
def sftpDownload (location : Text) (overwrite : Bool) (policy : VerificationPolicy) :
    TransferProcess TransferOutcome := do
  attempt .validateRequest
  let found ← targetExists
  if found && !overwrite then throw (.validation "本地下载目标已存在".toList)
  attempt .openSftp
  let available ← hashAvailable
  let strategy := selectVerification policy available
  noteStrategy strategy
  let total ← remoteSize
  newTracker total
  if strategy ≠ .transportAndSize then changePhase .verifying
  let expectedHash ← remoteHashFor strategy
  changePhase .transferring
  downloadToPartial location overwrite total strategy expectedHash

end QingzhouSSH.Core.Sftp
