/-
  QingzhouSSH.Core.Sftp.PipelinedDownload — reading a remote file, by a pipeline or block by
  block.

  Both loops act on the local file, the hasher and the statistics.  Which outstanding read
  completes next, what the server answers, whether a write or a report of progress goes
  through, and a cancellation are answers.  The state also remembers the answers that have
  been dealt with.

  Main results:
    * `joinReads_spec` — the reads of a window complete in any order and any number of parts;
    * `pipelined_equals_sequential` — what is written is the file from its start on, all of it
      at a success; the only errors are those of an answer that was refused.
-/
import Mathlib.Algebra.GroupWithZero.Nat
import QingzhouSSH.Core.Error
import QingzhouSSH.Core.Sftp.Pipeline
import QingzhouSSH.Lib.Process

namespace QingzhouSSH.Core.Sftp

open QingzhouSSH.Lib
open QingzhouSSH.Lib.Process

/-! ## §1. Answers. -/

/-- What the server says to a READ. -/
inductive SftpResponse where
  | data (bytes : Bytes)
  | eof
  | failed (message : Text)

/-- How the wait for one of the outstanding reads ends. -/
inductive Completion (outstanding : Nat) where
  | cancelled
  | taskFailed (message : Text)
  | joined (which : Fin outstanding) (response : SftpResponse)

/-- What becomes of a write; an interrupted one may have put down the first bytes. -/
inductive WriteAnswer where
  | written
  | interrupted (landed : Nat) (error : AppError)

structure Limits where
  packetLen : Option Nat
  readLen : Option Nat

inductive DownloadQuestion where
  | openRaw
  | openFile
  | joinNext (first : Chunk) (others : List Chunk)
  | read (offset len : Nat)
  | write (data : Bytes)
  | report (transferred : Nat)

def DownloadAnswer : DownloadQuestion → Type
  | .openRaw => AppResult Limits
  | .openFile | .report _ => AppResult Unit
  | .joinNext _ others => Completion (others.length + 1)
  | .read _ _ => AppResult Bytes
  | .write _ => WriteAnswer

/-- The checks of the response to a READ. -/
def receive (chunk : Chunk) : SftpResponse → AppResult Bytes
  | .data bytes =>
      if bytes = [] ∨ chunk.len < bytes.length then
        .error (.integrity "远端返回了无效的 SFTP 数据块".toList)
      else .ok bytes
  | .eof => .error (.integrity "远端文件在元数据声明的大小之前结束".toList)
  | .failed message => .error (.transfer message)

/-- An answer that has been dealt with: the response to a READ, or an error or none. -/
inductive Answered where
  | response (chunk : Chunk) (response : SftpResponse)
  | other (error : Option AppError)

/-- The error that an answer makes. -/
def Answered.refusal : Answered → Option AppError
  | .response chunk answer =>
      match receive chunk answer with
      | .ok _ => none
      | .error e => some e
  | .other error => error

structure Download where
  localFile : Bytes
  hashed : Bytes
  stats : PipelineStats
  answers : List Answered

def Download.initial : Download :=
  { localFile := [], hashed := [], stats := .default, answers := [] }

def Download.answer (answered : Answered) (s : Download) : Download :=
  { s with answers := answered :: s.answers }

/-! ## §2. Procedures. -/

abbrev DownloadProcess (α : Type) := ExceptT AppError (Process Download DownloadAnswer) α

/-- Stands for a loop that goes on; no run ends with it. -/
def turnsUsedUp : AppError := .integrity []

/-- Go on with the answer, or leave with its error. -/
def accept {α : Type} (answered : Answered) (result : AppResult α) : DownloadProcess α :=
  Process.atomic fun s => (result, s.answer answered)

/-- The same for an answer that is a result. -/
def acceptResult {α : Type} (result : AppResult α) : DownloadProcess α :=
  accept (.other (match result with
    | .ok _ => none
    | .error e => some e)) result

def observe (inFlight bufferedBytes : Nat) : DownloadProcess Unit :=
  Process.atomic fun s => (.ok (), { s with stats := s.stats.observe inFlight bufferedBytes })

/-- `write_all` and the hasher. -/
def putBytes (data : Bytes) : WriteAnswer → DownloadProcess Unit
  | .written =>
      Process.atomic fun s =>
        (.ok (), { s with localFile := s.localFile ++ data, hashed := s.hashed ++ data,
                          answers := .other none :: s.answers })
  | .interrupted landed error =>
      Process.atomic fun s =>
        (.error error, { s with localFile := s.localFile ++ data.take landed,
                                answers := .other (some error) :: s.answers })

/-- `write_download_chunk`, which gives the new count. -/
def writeDownloadChunk (data : Bytes) (transferred : Nat) : DownloadProcess Nat := do
  let answer ← ExceptT.lift (Process.query (DownloadQuestion.write data))
  putBytes data answer
  let reported ← ExceptT.lift
    (Process.query (DownloadQuestion.report (saturatingAdd transferred data.length)))
  acceptResult reported
  pure (saturatingAdd transferred data.length)

/-- The loop over the chunks that `drain_ready` gives out. -/
def writeChunks : List (Nat × Bytes) → Nat → DownloadProcess Nat
  | [], transferred => pure transferred
  | (_, data) :: rest, transferred => do
      let transferred ← writeDownloadChunk data transferred
      writeChunks rest transferred

/-- One of the outstanding reads, its response and the reads that are left. -/
def joinNext (first : Chunk) (others : List Chunk) :
    DownloadProcess (Chunk × List Chunk × SftpResponse) := do
  let completion ← ExceptT.lift (Process.query (DownloadQuestion.joinNext first others))
  match completion with
  | .cancelled => acceptResult (.error .cancelled)
  | .taskFailed message =>
      acceptResult (.error (.transfer ("SFTP 下载读取任务失败：".toList ++ message)))
  | .joined which response =>
      pure ((first :: others).get which, (first :: others).eraseIdx which, response)

/-- The read of what a short response has left out. -/
def restOf (chunk : Chunk) (data : Bytes) : List Chunk :=
  if data.length < chunk.len then
    [{ offset := saturatingAdd chunk.offset data.length, len := chunk.len - data.length }]
  else []

/-- The loop over the reads of a window.  Every response takes a byte at least, so the bytes
that are outstanding bound the number of turns. -/
def joinReads : Nat → List Chunk → OrderedChunkBuffer → Nat →
    DownloadProcess (OrderedChunkBuffer × Nat)
  | _, [], ordered, transferred => pure (ordered, transferred)
  | 0, _ :: _, _, _ => throw turnsUsedUp
  | turns + 1, first :: others, ordered, transferred => do
      let (chunk, waiting, response) ← joinNext first others
      let data ← accept (.response chunk response) (receive chunk response)
      let reads := waiting ++ restOf chunk data
      let (inserted, ordered) := ordered.insert chunk.offset data
      if !inserted then throw (.integrity "远端返回了重复或重叠的 SFTP 数据块".toList)
      observe reads.length ordered.bufferedBytes
      if maxPipelineBytes < ordered.bufferedBytes then
        throw (.integrity "SFTP 下载流水线缓冲区超过安全上限".toList)
      let (ready, ordered) := ordered.drainReady
      let transferred ← writeChunks ready transferred
      joinReads turns reads ordered transferred

/-- The loop over the windows; every window takes a byte at least. -/
def downloadWindows (chunkBytes total : Nat) : Nat → Nat → DownloadProcess Nat
  | windows, transferred =>
      if transferred < total then
        match windows with
        | 0 => throw turnsUsedUp
        | windows + 1 => do
            let chunks := planWindowFrom transferred total chunkBytes maxPipelineRequests
            match windowEnd chunks with
            | none => throw (.integrity "SFTP 下载流水线无法规划剩余文件".toList)
            | some stop =>
                observe chunks.length 0
                let (ordered, transferred) ←
                  joinReads (chunks.map Chunk.len).sum chunks (.new transferred) transferred
                if transferred ≠ stop ∨ ordered.bufferedBytes ≠ 0 then
                  throw (.integrity "SFTP 下载流水线未形成连续文件内容".toList)
                downloadWindows chunkBytes total windows transferred
      else pure transferred

def currentStats : DownloadProcess PipelineStats := Process.atomic fun s => (.ok s.stats, s)

def runDownloadPipeline (chunkBytes total : Nat) : DownloadProcess (Nat × PipelineStats) := do
  let transferred ← downloadWindows chunkBytes total total 0
  let stats ← currentStats
  pure (transferred, stats)

/-- `download_known_size_pipelined`; closing the handle afterwards has no result. -/
def downloadKnownSizePipelined (total : Nat) : DownloadProcess (Nat × PipelineStats) := do
  let opened ← ExceptT.lift (Process.query DownloadQuestion.openRaw)
  let limits ← acceptResult opened
  runDownloadPipeline (effectiveReadChunk limits.packetLen limits.readLen) total

def transferBlockBytes : Nat := 256 * 1024

/-- The loop of `download_unknown_size_sequential`, for so many blocks. -/
def readBlocks : Nat → Nat → DownloadProcess Nat
  | 0, _ => throw turnsUsedUp
  | blocks + 1, transferred => do
      let answer ← ExceptT.lift (Process.query (DownloadQuestion.read transferred transferBlockBytes))
      let block ← acceptResult answer
      if block = [] then pure transferred
      else
        let transferred ← writeDownloadChunk block transferred
        readBlocks blocks transferred

def downloadUnknownSizeSequential (blocks : Nat) : DownloadProcess Nat := do
  let opened ← ExceptT.lift (Process.query DownloadQuestion.openFile)
  acceptResult opened
  readBlocks blocks 0

/-! ## §3. What is known during a download. -/

/-- The answers to a READ are bytes of the file: as many as were asked for or fewer, and of
a sequential reader none only at the end.  A response that is too long can be anything. -/
def Honest (file : Bytes) : (question : DownloadQuestion) → DownloadAnswer question → Prop
  | .joinNext first others, .joined which (.data bytes) =>
      bytes.length ≤ ((first :: others).get which).len →
        ReadAt file ((first :: others).get which).offset bytes
  | .read offset len, .ok bytes =>
      bytes.length ≤ len ∧ ReadAt file offset bytes ∧ (bytes = [] → file.length ≤ offset)
  | _, _ => True

/-- At any time. -/
structure Sound (file : Bytes) (s : Download) : Prop where
  local_initial : s.localFile <+: file
  in_flight : s.stats.maxInFlight ≤ maxPipelineRequests
  buffered : s.stats.maxBufferedBytes ≤ maxPipelineBytes

def known (file : Bytes) (P : Download → Prop) : Assertion Undisturbed (Sound file) :=
  .undisturbed (fun s => Sound file s ∧ P s) fun _ h => h.1

/-- The first bytes have been written and hashed, and no answer has been refused. -/
structure Written (file : Bytes) (transferred : Nat) (s : Download) : Prop where
  inside : transferred ≤ file.length
  local_eq : s.localFile = file.take transferred
  hashed_eq : s.hashed = s.localFile
  accepted : ∀ answered ∈ s.answers, answered.refusal = none

abbrev written (file : Bytes) (transferred : Nat) : Assertion Undisturbed (Sound file) :=
  known file (Written file transferred)

/-- The last answer was refused with this error. -/
def Refused (e : AppError) (s : Download) : Prop :=
  ∃ answered, s.answers.head? = some answered ∧ answered.refusal = some e

abbrev refused (file : Bytes) (e : AppError) : Assertion Undisturbed (Sound file) :=
  known file (Refused e)

variable {file : Bytes} {transferred : Nat}

theorem Sound.answer {s : Download} (h : Sound file s) (answered : Answered) :
    Sound file (s.answer answered) :=
  ⟨h.local_initial, h.in_flight, h.buffered⟩

theorem Written.answer {s : Download} (h : Written file transferred s) {answered : Answered}
    (haccepted : answered.refusal = none) : Written file transferred (s.answer answered) :=
  { h with
    accepted := by
      rintro other hmem
      rcases List.mem_cons.mp hmem with rfl | hmem
      · exact haccepted
      · exact h.accepted other hmem }

theorem accept_spec {α : Type} {answered : Answered} {result : AppResult α}
    (hok : ∀ a, result = .ok a → answered.refusal = none)
    (herror : ∀ e, result = .error e → answered.refusal = some e) :
    Triple (Honest file) (written file transferred) (accept answered result).run
      (ending (fun a => (written file transferred).given (result = .ok a)) (refused file)) := by
  refine triple_atomic fun s hs => ?_
  cases result with
  | ok a => exact ⟨rfl, hs.1.answer answered, hs.2.answer (hok a rfl)⟩
  | error e => exact ⟨hs.1.answer answered, answered, rfl, herror e rfl⟩

theorem acceptResult_spec {α : Type} (result : AppResult α) :
    Triple (Honest file) (written file transferred) (acceptResult result).run
      (ending (fun a => (written file transferred).given (result = .ok a)) (refused file)) := by
  cases result with
  | ok a => exact accept_spec (fun _ _ => rfl) nofun
  | error e =>
      refine accept_spec nofun fun e' heq => ?_
      cases heq
      rfl

/-! ## §4. Writing. -/

/-- The bytes that come next make the prefix longer. -/
theorem take_append_of_read {data : Bytes} (hinside : transferred ≤ file.length)
    (hread : ReadAt file transferred data) :
    transferred + data.length ≤ file.length
      ∧ file.take transferred ++ data = file.take (transferred + data.length) := by
  obtain ⟨rest, hrest⟩ := hread
  have hlength := congrArg List.length hrest
  rw [List.length_append, List.length_drop] at hlength
  refine ⟨by omega, ?_⟩
  rw [List.take_add, ← hrest, List.take_left]

theorem writeDownloadChunk_spec {data : Bytes} (hread : ReadAt file transferred data)
    (hfits : transferred + data.length ≤ u64Max) :
    Triple (Honest file) (written file transferred) (writeDownloadChunk data transferred).run
      (ending (fun count => (written file (transferred + data.length)).given
        (count = transferred + data.length)) (refused file)) := by
  unfold writeDownloadChunk
  refine triple_answer fun answer _ => ?_
  have hput : Triple (Honest file) (written file transferred) (putBytes data answer).run
      (ending (fun _ => written file (transferred + data.length)) (refused file)) := by
    cases answer with
    | written =>
        refine triple_atomic fun s hs => ?_
        obtain ⟨hinside, htake⟩ := take_append_of_read hs.2.inside hread
        have hlocal : s.localFile ++ data = file.take (transferred + data.length) := by
          rw [hs.2.local_eq, htake]
        refine ⟨⟨?_, hs.1.in_flight, hs.1.buffered⟩, hinside, hlocal, ?_, ?_⟩
        · show s.localFile ++ data <+: file
          rw [hlocal]
          exact List.take_prefix _ _
        · show s.hashed ++ data = s.localFile ++ data
          rw [hs.2.hashed_eq]
        · exact (hs.2.answer rfl).accepted
    | interrupted landed error =>
        refine triple_atomic fun s hs => ?_
        -- the bytes that have landed are the next ones of the file as well
        have hlanded : ReadAt file transferred (data.take landed) :=
          (List.take_prefix _ _).trans hread
        obtain ⟨_, htake⟩ := take_append_of_read hs.2.inside hlanded
        refine ⟨⟨?_, hs.1.in_flight, hs.1.buffered⟩, .other (some error), rfl, rfl⟩
        show s.localFile ++ data.take landed <+: file
        rw [hs.2.local_eq, htake]
        exact List.take_prefix _ _
  refine triple_then hput fun _ => triple_answer fun reported _ => ?_
  refine triple_then (acceptResult_spec reported) fun _ => triple_end fun s hs => ?_
  exact ⟨saturatingAdd_of_le hfits, hs.2⟩

theorem writeChunks_spec {chunks : List (Nat × Bytes)} {stop : Nat} (hfits : stop ≤ u64Max)
    (hchunks : Consecutive file chunks transferred stop) :
    Triple (Honest file) (written file transferred) (writeChunks chunks transferred).run
      (ending (fun count => (written file stop).given (count = stop)) (refused file)) := by
  induction chunks generalizing transferred with
  | nil =>
      obtain ⟨rfl, _⟩ := hchunks
      exact triple_end fun s hs => ⟨rfl, hs⟩
  | cons chunk rest ih =>
      obtain ⟨offset, data⟩ := chunk
      obtain ⟨⟨rfl, _, hchain⟩, hread⟩ := hchunks
      have hsum := hchain.sum
      have hdata : ReadAt file offset data := hread (offset, data) List.mem_cons_self
      show Triple _ (written file offset) _ _
      dsimp only at hchain hsum
      refine triple_then (writeDownloadChunk_spec hdata (by omega)) fun count => triple_given fun hcount => ?_
      rw [hcount]
      exact ih ⟨hchain, fun entry hentry => hread entry (List.mem_cons_of_mem _ hentry)⟩

/-! ## §5. The reads of a window. -/

/-- The outstanding reads and the buffer make up what is left of the window. -/
structure Window (file : Bytes) (stop : Nat) (reads : List Chunk) (ordered : OrderedChunkBuffer) :
    Prop where
  held : Holding file ordered
  covers : Covers (reads.map Chunk.piece ++ ordered.pieces) ordered.nextOffset stop
  drained : ordered.chunks.get? ordered.nextOffset = none
  few : reads.length ≤ maxPipelineRequests
  fits : stop ≤ u64Max
  small : stop - ordered.nextOffset ≤ maxPipelineBytes

/-- A response that is accepted is data, not empty and not too long. -/
theorem receive_ok {chunk : Chunk} {response : SftpResponse} {data : Bytes}
    (h : receive chunk response = .ok data) :
    response = .data data ∧ 0 < data.length ∧ data.length ≤ chunk.len := by
  cases response with
  | eof => cases h
  | failed message => cases h
  | data bytes =>
      by_cases hbad : bytes = [] ∨ chunk.len < bytes.length
      · rw [receive, if_pos hbad] at h
        cases h
      · rw [receive, if_neg hbad] at h
        cases h
        rw [not_or, Nat.not_lt] at hbad
        exact ⟨rfl, List.length_pos_iff.mpr hbad.1, hbad.2⟩

theorem acceptResponse_spec {chunk : Chunk} {response : SftpResponse} :
    Triple (Honest file) (written file transferred)
      (accept (.response chunk response) (receive chunk response)).run
      (ending (fun data => (written file transferred).given (receive chunk response = .ok data))
        (refused file)) := by
  refine accept_spec (fun data hdata => ?_) fun e herror => ?_
  · dsimp only [Answered.refusal]
    rw [hdata]
  · dsimp only [Answered.refusal]
    rw [herror]

theorem observe_spec {inFlight bufferedBytes : Nat} (hfew : inFlight ≤ maxPipelineRequests)
    (hbytes : bufferedBytes ≤ maxPipelineBytes) :
    Triple (Honest file) (written file transferred) (observe inFlight bufferedBytes).run
      (ending (fun _ => written file transferred) (refused file)) := by
  refine triple_atomic fun s hs => ?_
  have hsound : Sound file { s with stats := s.stats.observe inFlight bufferedBytes } :=
    ⟨hs.1.local_initial, Nat.max_le.mpr ⟨hs.1.in_flight, hfew⟩,
      Nat.max_le.mpr ⟨hs.1.buffered, hbytes⟩⟩
  exact ⟨hsound, hs.2.inside, hs.2.local_eq, hs.2.hashed_eq, hs.2.accepted⟩

theorem acceptError_spec {α : Type} {e : AppError} {Q : α → Assertion Undisturbed (Sound file)} :
    Triple (Honest file) (written file transferred) (acceptResult (.error e)).run
      (ending Q (refused file)) :=
  triple_atomic fun _ hs => ⟨hs.1.answer _, .other (some e), rfl, rfl⟩

theorem joinNext_spec {first : Chunk} {others : List Chunk} :
    Triple (Honest file) (written file transferred) (joinNext first others).run
      (ending (fun joined => (written file transferred).given
        ((joined.1 :: joined.2.1).Perm (first :: others)
          ∧ ∀ data, receive joined.1 joined.2.2 = .ok data → ReadAt file joined.1.offset data))
        (refused file)) := by
  unfold joinNext
  refine triple_answer fun completion hhonest => ?_
  cases completion with
  | cancelled => exact acceptError_spec
  | taskFailed message => exact acceptError_spec
  | joined which response =>
      refine triple_end fun s hs => ⟨⟨?_, fun data hdata => ?_⟩, hs⟩
      · exact List.getElem_cons_eraseIdx_perm which.isLt
      · obtain ⟨rfl, _, hlength⟩ := receive_ok hdata
        exact hhonest hlength

/-- The response and the read of the rest take the place of the read. -/
theorem covers_response {chunk : Chunk} {waiting : List Chunk} {pieces : List Piece}
    {data : Bytes} {start stop : Nat}
    (h : Covers ((chunk :: waiting).map Chunk.piece ++ pieces) start stop)
    (hdata : 0 < data.length ∧ data.length ≤ chunk.len) (hfits : stop ≤ u64Max) :
    Covers ((chunk.offset, data.length) :: ((waiting ++ restOf chunk data).map Chunk.piece ++ pieces))
      start stop := by
  have hinside : chunk.offset + chunk.len ≤ stop :=
    (h.inside (List.mem_cons_self : chunk.piece ∈ chunk.piece :: _)).2.2
  unfold restOf
  by_cases hshort : data.length < chunk.len
  · rw [if_pos hshort, saturatingAdd_of_le (by omega)]
    have hlen : chunk.len = data.length + (chunk.len - data.length) := by omega
    have hcut : Covers ((chunk.offset, data.length + (chunk.len - data.length))
        :: (waiting.map Chunk.piece ++ pieces)) start stop := by
      rw [← hlen]
      exact h
    refine (hcut.split hdata.1 (by omega)).perm (List.Perm.cons _ ?_)
    rw [List.map_append, List.append_assoc]
    exact List.perm_middle.symm
  · rw [if_neg hshort, List.append_nil]
    have hlen : chunk.len = data.length := by omega
    rw [← hlen]
    exact h

/-- A response takes bytes from what is outstanding. -/
theorem bytes_response {chunk : Chunk} {data : Bytes}
    (hdata : 0 < data.length ∧ data.length ≤ chunk.len) (waiting : List Chunk) :
    ((waiting ++ restOf chunk data).map Chunk.len).sum + data.length
      = chunk.len + (waiting.map Chunk.len).sum := by
  unfold restOf
  rw [List.map_append, List.sum_append]
  by_cases hshort : data.length < chunk.len
  · rw [if_pos hshort, List.map_singleton, List.sum_singleton]
    show (waiting.map Chunk.len).sum + (chunk.len - data.length) + data.length = _
    omega
  · rw [if_neg hshort, List.map_nil, List.sum_nil]
    omega

theorem length_response {chunk : Chunk} {data : Bytes} (waiting : List Chunk) :
    (waiting ++ restOf chunk data).length ≤ waiting.length + 1 := by
  unfold restOf
  rw [List.length_append]
  split
  · exact Nat.le_refl _
  · exact Nat.le_succ _

/-- **The reads of a window complete in any order and in any number of parts**, and then the
window has been written. -/
theorem joinReads_spec {stop turns : Nat} {reads : List Chunk} {ordered : OrderedChunkBuffer}
    (hwindow : Window file stop reads ordered) (hturns : (reads.map Chunk.len).sum ≤ turns) :
    Triple (Honest file) (written file ordered.nextOffset)
      (joinReads turns reads ordered ordered.nextOffset).run
      (ending (fun r => (written file stop).given (r.2 = stop ∧ r.1.bufferedBytes = 0))
        (refused file)) := by
  induction turns generalizing reads ordered with
  | zero =>
      cases reads with
      | nil =>
          obtain ⟨hnext, hempty⟩ := hwindow.held.done hwindow.covers hwindow.drained
          refine triple_end fun s hs => ⟨⟨hnext, hempty⟩, ?_⟩
          rw [← hnext]
          exact hs
      | cons first others =>
          -- a read is of a byte at least
          have hpos := (hwindow.covers.inside (List.mem_cons_self : first.piece ∈ first.piece :: _)).2.1
          rw [List.map_cons, List.sum_cons] at hturns
          have hzero : first.piece.2 = 0 := by
            show first.len = 0
            omega
          omega
  | succ turns ih =>
      cases reads with
      | nil =>
          obtain ⟨hnext, hempty⟩ := hwindow.held.done hwindow.covers hwindow.drained
          refine triple_end fun s hs => ⟨⟨hnext, hempty⟩, ?_⟩
          rw [← hnext]
          exact hs
      | cons first others =>
          refine triple_then joinNext_spec fun joined => triple_given fun hjoined => ?_
          obtain ⟨chunk, waiting, response⟩ := joined
          obtain ⟨hperm, hhonest⟩ := hjoined
          dsimp only at hperm hhonest ⊢
          refine triple_then acceptResponse_spec fun data => triple_given fun hreceived => ?_
          obtain ⟨_, hdata⟩ := receive_ok hreceived
          have hcovers := covers_response
            (hwindow.covers.perm ((hperm.symm.map Chunk.piece).append_right _)) hdata hwindow.fits
          obtain ⟨inserted, hinsert, hheld, hnext, hcovered⟩ :=
            hwindow.held.insert (hhonest data hreceived) hcovers hwindow.fits
          rw [hinsert]
          rw [if_neg (show ¬(!true) = true from Bool.false_ne_true)]
          -- no more is buffered than the window is long
          have hbytes : inserted.bufferedBytes ≤ maxPipelineBytes := by
            have hsum := hcovered.sum
            have hsmall := hwindow.small
            rw [List.map_append, List.sum_append, ← hheld.counted] at hsum
            omega
          have hfew : (waiting ++ restOf chunk data).length ≤ maxPipelineRequests := by
            have hlength := hperm.length_eq
            have hmore : (waiting ++ restOf chunk data).length ≤ waiting.length + 1 :=
              length_response waiting
            have hbefore := hwindow.few
            rw [List.length_cons] at hlength
            omega
          refine triple_then (observe_spec hfew hbytes) fun _ => ?_
          rw [if_neg (Nat.not_lt.mpr hbytes)]
          rw [← hnext] at hcovered
          obtain ⟨hdrained, hleft, hnone, hready⟩ := hheld.drain hcovered hwindow.fits
          have hprogress := hready.1.sum
          have hfits : inserted.drainReady.2.nextOffset ≤ u64Max := by
            have hsum := hleft.sum
            have hstop := hwindow.fits
            omega
          rw [hnext] at hready
          refine triple_then (writeChunks_spec hfits hready) fun count => triple_given fun hcount => ?_
          rw [hcount]
          refine ih ⟨hdrained, hleft, hnone, hfew, hwindow.fits, ?_⟩ ?_
          · have hsmall := hwindow.small
            omega
          · have htaken := bytes_response hdata waiting
            have hsame := (hperm.map Chunk.len).sum_eq
            rw [List.map_cons, List.sum_cons] at hsame
            omega

/-! ## §6. The loops. -/

theorem window_new {stop : Nat} {chunks : List Chunk}
    (hchain : Chain (chunks.map Chunk.piece) transferred stop)
    (hfew : chunks.length ≤ maxPipelineRequests) (hfits : stop ≤ u64Max)
    (hsmall : stop - transferred ≤ maxPipelineBytes) :
    Window file stop chunks (.new transferred) where
  held := holding_new file transferred
  covers := by
    have hnone : (OrderedChunkBuffer.new transferred).pieces = [] := rfl
    rw [hnone, List.append_nil]
    exact .of_chain hchain
  drained := rfl
  few := hfew
  fits := hfits
  small := hsmall

theorem downloadWindows_spec {chunkBytes total windows : Nat} (hchunk : 0 < chunkBytes)
    (hfits : total ≤ u64Max) (hinside : transferred ≤ total)
    (hwindows : total - transferred ≤ windows) :
    Triple (Honest file) (written file transferred)
      (downloadWindows chunkBytes total windows transferred).run
      (ending (fun count => (written file total).given (count = total)) (refused file)) := by
  induction windows generalizing transferred with
  | zero =>
      have hall : transferred = total := by omega
      unfold downloadWindows
      rw [if_neg (by omega), hall]
      exact triple_end fun s hs => ⟨rfl, hs⟩
  | succ windows ih =>
      unfold downloadWindows
      by_cases hmore : transferred < total
      · rw [if_pos hmore]
        obtain ⟨stop, hstop, hchain, hfew, hlonger, hwithin, hsmall⟩ :=
          planWindowFrom_chain hfits hmore hchunk (show 0 < maxPipelineRequests by decide)
        rw [Nat.min_self] at hfew
        dsimp only
        rw [hstop]
        refine triple_then (observe_spec hfew (Nat.zero_le _)) fun _ => ?_
        have hwindow : Window file stop (planWindowFrom transferred total chunkBytes maxPipelineRequests)
            (.new transferred) := window_new hchain hfew (by omega) hsmall
        refine triple_then (joinReads_spec hwindow (Nat.le_refl _)) fun joined =>
          triple_given fun hjoined => ?_
        obtain ⟨ordered, count⟩ := joined
        obtain ⟨rfl, hempty⟩ := hjoined
        have hcontiguous : ¬(count ≠ count ∨ ordered.bufferedBytes ≠ 0) := by
          rintro (hcount | hbytes)
          · exact hcount rfl
          · exact hbytes hempty
        dsimp only
        rw [if_neg hcontiguous]
        exact ih hwithin (by omega)
      · have hall : transferred = total := by omega
        rw [if_neg hmore, hall]
        exact triple_end fun s hs => ⟨rfl, hs⟩

theorem downloadKnownSizePipelined_spec {total : Nat} (hfits : total ≤ u64Max) :
    Triple (Honest file) (written file 0) (downloadKnownSizePipelined total).run
      (ending (fun r => known file fun s => Written file total s ∧ r = (total, s.stats))
        (refused file)) := by
  unfold downloadKnownSizePipelined runDownloadPipeline
  refine triple_answer fun opened _ => ?_
  refine triple_then (acceptResult_spec opened) fun limits => triple_given fun _ => ?_
  have hloop : Triple (Honest file) (written file 0)
      (downloadWindows (effectiveReadChunk limits.packetLen limits.readLen) total total 0).run
      (ending (fun count => (written file total).given (count = total)) (refused file)) :=
    downloadWindows_spec (effectiveReadChunk_pos limits.packetLen limits.readLen) hfits
      (Nat.zero_le total) (Nat.le_refl _)
  refine triple_then hloop fun count => triple_given fun hcount => ?_
  have hstats : Triple (Honest file) (written file total) currentStats.run
      (ending (fun stats => known file fun s => Written file total s ∧ stats = s.stats)
        (refused file)) :=
    triple_atomic fun s hs => ⟨hs.1, hs.2, rfl⟩
  refine triple_then hstats fun stats => ?_
  exact triple_end fun s hs => ⟨hs.1, hs.2.1, by rw [hcount, hs.2.2]⟩

theorem readBlocks_spec (hfits : file.length ≤ u64Max) {blocks : Nat}
    (hblocks : file.length - transferred < blocks) :
    Triple (Honest file) (written file transferred) (readBlocks blocks transferred).run
      (ending (fun count => (written file file.length).given (count = file.length))
        (refused file)) := by
  induction blocks generalizing transferred with
  | zero => exact absurd hblocks (Nat.not_lt_zero _)
  | succ blocks ih =>
      unfold readBlocks
      refine triple_answer fun answer hhonest => ?_
      refine triple_then (acceptResult_spec answer) fun block => triple_given fun hanswer => ?_
      rw [hanswer] at hhonest
      obtain ⟨_, hread, hend⟩ := hhonest
      by_cases hempty : block = []
      · rw [if_pos hempty]
        refine triple_end fun s hs => ?_
        have hall : transferred = file.length := Nat.le_antisymm hs.2.inside (hend hempty)
        rw [← hall]
        exact ⟨rfl, hs⟩
      · rw [if_neg hempty]
        have hpos := List.length_pos_iff.mpr hempty
        refine triple_of_fact (fun s hs => hs.2.inside) fun hinside => ?_
        have hmore := (take_append_of_read hinside hread).1
        refine triple_then (writeDownloadChunk_spec hread (by omega)) fun count =>
          triple_given fun hcount => ?_
        rw [hcount]
        exact ih (by omega)

theorem downloadUnknownSizeSequential_spec (hfits : file.length ≤ u64Max) {blocks : Nat}
    (hblocks : file.length < blocks) :
    Triple (Honest file) (written file 0) (downloadUnknownSizeSequential blocks).run
      (ending (fun count => (written file file.length).given (count = file.length))
        (refused file)) := by
  unfold downloadUnknownSizeSequential
  refine triple_answer fun opened _ => ?_
  refine triple_then (acceptResult_spec opened) fun _ => triple_given fun _ => ?_
  exact readBlocks_spec hfits (by omega)

/-! ## §7. Both ways of reading. -/

theorem written_initial (file : Bytes) : (written file 0).holds .initial :=
  ⟨⟨List.nil_prefix, Nat.zero_le _, Nat.zero_le _⟩, Nat.zero_le _, rfl, rfl, nofun⟩

/-- **A pipelined download writes what a sequential one writes.**  In whatever order and in
however many parts the reads complete, what has been written is the file from its start on,
at most 16 MiB wait in the buffer, and the end is a success with all bytes unless an answer
was refused: an empty or too long response, an error, or a cancellation. -/
theorem pipelined_equals_sequential {total : Nat} (hfits : total ≤ u64Max)
    {p : Process Download DownloadAnswer (AppResult (Nat × PipelineStats))} {s : Download}
    (hrun : ReachesIn Undisturbed (Honest file) ((downloadKnownSizePipelined total).run, .initial)
      (p, s)) :
    s.localFile <+: file ∧ s.stats.maxBufferedBytes ≤ maxPipelineBytes
      ∧ (∀ r, p = .done (.ok r) →
          (∀ answered ∈ s.answers, answered.refusal = none)
            ∧ r = (total, s.stats) ∧ total ≤ file.length
            ∧ s.localFile = file.take total ∧ s.hashed = file.take total
            ∧ ∀ blocks count s', file.length = total → total < blocks →
                ReachesIn Undisturbed (Honest file)
                  ((downloadUnknownSizeSequential blocks).run, .initial)
                  (.done (.ok count), s') →
                count = total ∧ s'.localFile = s.localFile)
      ∧ ∀ e, p = .done (.error e) → Refused e s := by
  obtain ⟨hsound, hend⟩ := triple_iff.mp (downloadKnownSizePipelined_spec hfits) _
    (written_initial file) p s hrun
  refine ⟨hsound.local_initial, hsound.buffered, fun r hr => ?_, fun e he => ?_⟩
  · obtain ⟨_, hwritten, hresult⟩ := hend _ hr
    refine ⟨hwritten.accepted, hresult, hwritten.inside, hwritten.local_eq, ?_, ?_⟩
    · rw [hwritten.hashed_eq, hwritten.local_eq]
    · intro blocks count s' hlength hblocks hsequential
      have hother := (triple_iff.mp
        (downloadUnknownSizeSequential_spec (hlength ▸ hfits) (hlength ▸ hblocks)) _
        (written_initial file) _ s' hsequential).2 _ rfl
      obtain ⟨hcount, _, hall⟩ := hother
      refine ⟨hcount.trans hlength, ?_⟩
      rw [hall.local_eq, hwritten.local_eq, hlength]
  · exact (hend _ he).2

/-- Three bytes, read in chunks of two: the last outstanding read completes first, and every
response is one byte. -/
def sampleFile : Bytes := [1, 2, 3]

def sampleDownloadAnswer : (question : DownloadQuestion) → DownloadAnswer question
  | .openRaw => .ok { packetLen := none, readLen := some 2 }
  | .openFile | .report _ => .ok ()
  | .joinNext first others =>
      .joined (Fin.last others.length)
        (.data ((sampleFile.drop ((first :: others).get (Fin.last others.length)).offset).take 1))
  | .read _ _ => .error .cancelled
  | .write _ => .written

theorem sampleDownloadAnswer_honest (question : DownloadQuestion) :
    Honest sampleFile question (sampleDownloadAnswer question) := by
  cases question with
  | joinNext first others => exact fun _ => List.take_prefix _ _
  | openRaw | openFile | report | write | read => trivial

/-- The end of the sample. -/
def sampleDownload : AppResult (Nat × PipelineStats) × Download :=
  Process.run (fun _ => sampleDownloadAnswer) 0 (downloadKnownSizePipelined 3).run .initial

theorem sampleDownload_complete :
    sampleDownload.1 = .ok (3, { maxInFlight := 2, maxBufferedBytes := 2 })
      ∧ sampleDownload.2.localFile = sampleFile := by
  have hresult : sampleDownload.1 = .ok (3, { maxInFlight := 2, maxBufferedBytes := 2 }) := by
    decide
  have hrun : ReachesIn Undisturbed (Honest sampleFile)
      ((downloadKnownSizePipelined 3).run, .initial) (.done sampleDownload.1, sampleDownload.2) :=
    run_reachesIn (fun _ => sampleDownloadAnswer_honest) 0 _ _
  have hall := (pipelined_equals_sequential (by decide) hrun).2.2.1 _ (congrArg _ hresult)
  exact ⟨hresult, hall.2.2.2.1⟩

end QingzhouSSH.Core.Sftp
