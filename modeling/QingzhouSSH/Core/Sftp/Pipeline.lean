/-
  QingzhouSSH.Core.Sftp.Pipeline — the window of a pipelined download and the buffer
  that puts its chunks in order.

  Numbers are those of the source, with its saturating additions; the casts to 32 bits are
  left out, since no chunk is longer than 2 MiB.

  Main results:
    * `planWindowFrom_chain` — a window is at most eight chunks, one after the other, of at
      most 16 MiB;
    * `planWindowFrom_tiles` — windows planned one after the other hold every position of
      the file once;
    * `Holding.insert`, `Holding.drain` — what the buffer holds, and what it gives out.
-/
import QingzhouSSH.Lib.OrdMap
import QingzhouSSH.Lib.Tiling

namespace QingzhouSSH.Core.Sftp

open QingzhouSSH.Lib

/-! ## §1. Windows. -/

abbrev Bytes := List UInt8

def maxPipelineRequests : Nat := 8

def maxPipelineBytes : Nat := 16 * 1024 * 1024

def maxReadChunkBytes : Nat := 2 * 1024 * 1024

def defaultReadChunkBytes : Nat := 256 * 1024

def sftpDataPacketOverhead : Nat := 9

def u64Max : Nat := 2 ^ 64 - 1

def u32Max : Nat := 2 ^ 32 - 1

def saturatingAdd (a b : Nat) : Nat := min (a + b) u64Max

theorem saturatingAdd_of_le {a b : Nat} (h : a + b ≤ u64Max) : saturatingAdd a b = a + b :=
  Nat.min_eq_left h

structure Chunk where
  offset : Nat
  len : Nat
  deriving Repr, DecidableEq

/-- The range of a chunk. -/
def Chunk.piece (chunk : Chunk) : Piece := (chunk.offset, chunk.len)

def effectiveReadChunk (serverPacketLen serverReadLen : Option Nat) : Nat :=
  let packetDataLen := (serverPacketLen.map fun packet => packet - sftpDataPacketOverhead).filter
    fun packet => decide (0 < packet)
  max 1 (min maxReadChunkBytes
    (min ((serverReadLen.or packetDataLen).getD defaultReadChunkBytes)
      (packetDataLen.getD maxReadChunkBytes)))

theorem effectiveReadChunk_pos (serverPacketLen serverReadLen : Option Nat) :
    0 < effectiveReadChunk serverPacketLen serverReadLen :=
  Nat.lt_of_lt_of_le Nat.one_pos (Nat.le_max_left _ _)

structure PipelineStats where
  maxInFlight : Nat
  maxBufferedBytes : Nat
  deriving Repr, DecidableEq

def PipelineStats.default : PipelineStats := { maxInFlight := 0, maxBufferedBytes := 0 }

def PipelineStats.observe (inFlight bufferedBytes : Nat) (stats : PipelineStats) : PipelineStats :=
  { maxInFlight := max stats.maxInFlight inFlight,
    maxBufferedBytes := max stats.maxBufferedBytes bufferedBytes }

/-- The loop of `plan_window_from`, with the number of requests that may still be added. -/
def planChunks (total chunkBytes : Nat) : Nat → Nat → Nat → List Chunk
  | 0, _, _ => []
  | requests + 1, offset, windowBytes =>
      if offset < total ∧ windowBytes < maxPipelineBytes then
        let len := min (min (total - offset) chunkBytes) (maxPipelineBytes - windowBytes)
        if len = 0 then []
        else
          { offset := offset, len := len }
            :: planChunks total chunkBytes requests (saturatingAdd offset len)
              (saturatingAdd windowBytes len)
      else []

def planWindowFrom (start total requestedChunkBytes maxRequests : Nat) : List Chunk :=
  if total ≤ start ∨ requestedChunkBytes = 0 ∨ maxRequests = 0 then []
  else
    planChunks total (min (min requestedChunkBytes maxReadChunkBytes) u32Max)
      (min maxRequests maxPipelineRequests) start 0

/-- Where the last chunk ends. -/
def windowEnd (chunks : List Chunk) : Option Nat :=
  chunks.getLast?.map fun chunk => saturatingAdd chunk.offset chunk.len

theorem planChunks_length (total chunkBytes requests offset windowBytes : Nat) :
    (planChunks total chunkBytes requests offset windowBytes).length ≤ requests := by
  induction requests generalizing offset windowBytes with
  | zero => exact Nat.le_refl 0
  | succ requests ih =>
      unfold planChunks
      split
      · dsimp only
        split
        · exact Nat.zero_le _
        · exact Nat.succ_le_succ (ih _ _)
      · exact Nat.zero_le _

/-- The chunks follow one another, inside the file and the limit of a window. -/
theorem planChunks_chain {total : Nat} (hfits : total ≤ u64Max) (chunkBytes requests : Nat)
    {offset windowBytes : Nat} (hoffset : offset ≤ total)
    (hwindow : windowBytes ≤ maxPipelineBytes) :
    ∃ stop, Chain ((planChunks total chunkBytes requests offset windowBytes).map Chunk.piece)
        offset stop
      ∧ stop ≤ total ∧ windowBytes + (stop - offset) ≤ maxPipelineBytes := by
  induction requests generalizing offset windowBytes with
  | zero => exact ⟨offset, rfl, hoffset, by omega⟩
  | succ requests ih =>
      unfold planChunks
      by_cases hmore : offset < total ∧ windowBytes < maxPipelineBytes
      · rw [if_pos hmore]
        dsimp only
        generalize hlen : min (min (total - offset) chunkBytes) (maxPipelineBytes - windowBytes)
          = len
        by_cases hzero : len = 0
        · rw [if_pos hzero]
          exact ⟨offset, rfl, hoffset, by omega⟩
        · rw [if_neg hzero]
          have hmax : maxPipelineBytes ≤ u64Max := by decide
          rw [saturatingAdd_of_le (by omega), saturatingAdd_of_le (by omega)]
          obtain ⟨stop, hchain, hstop, hbytes⟩ :=
            ih (show offset + len ≤ total by omega)
              (show windowBytes + len ≤ maxPipelineBytes by omega)
          have hsum := hchain.sum
          exact ⟨stop, ⟨rfl, Nat.pos_of_ne_zero hzero, hchain⟩, hstop, by omega⟩
      · rw [if_neg hmore]
        exact ⟨offset, rfl, hoffset, by omega⟩

theorem windowEnd_of_chain {chunks : List Chunk} {a b : Nat} (hfits : b ≤ u64Max)
    (h : Chain (chunks.map Chunk.piece) a b) (hne : chunks ≠ []) : windowEnd chunks = some b := by
  induction chunks generalizing a with
  | nil => exact absurd rfl hne
  | cons chunk rest ih =>
      obtain ⟨rfl, hpos, hrest⟩ := h
      cases rest with
      | nil =>
          have hend : chunk.offset + chunk.len = b := hrest
          show some (saturatingAdd chunk.offset chunk.len) = some b
          rw [saturatingAdd_of_le (by omega), hend]
      | cons next rest => exact ih hrest (List.cons_ne_nil next rest)

/-- No chunk is longer than asked for. -/
theorem planChunks_len {total chunkBytes requests offset windowBytes : Nat} {chunk : Chunk}
    (h : chunk ∈ planChunks total chunkBytes requests offset windowBytes) :
    chunk.len ≤ chunkBytes := by
  induction requests generalizing offset windowBytes with
  | zero => cases h
  | succ requests ih =>
      unfold planChunks at h
      split at h
      · dsimp only at h
        split at h
        · cases h
        · rcases List.mem_cons.mp h with rfl | h
          · show min (min (total - offset) chunkBytes) (maxPipelineBytes - windowBytes) ≤ chunkBytes
            omega
          · exact ih h
      · cases h

variable {start total chunkBytes maxRequests : Nat}

theorem planWindowFrom_eq_planChunks (hstart : start < total) (hchunk : 0 < chunkBytes)
    (hrequests : 0 < maxRequests) :
    planWindowFrom start total chunkBytes maxRequests
      = planChunks total (min (min chunkBytes maxReadChunkBytes) u32Max)
          (min maxRequests maxPipelineRequests) start 0 := by
  unfold planWindowFrom
  rw [if_neg (by omega)]

theorem planWindowFrom_eq_nil (h : ¬(start < total ∧ 0 < chunkBytes ∧ 0 < maxRequests)) :
    planWindowFrom start total chunkBytes maxRequests = [] := by
  unfold planWindowFrom
  rw [if_pos (by omega)]

theorem planWindowFrom_ne_nil (hstart : start < total) (hchunk : 0 < chunkBytes)
    (hrequests : 0 < maxRequests) : planWindowFrom start total chunkBytes maxRequests ≠ [] := by
  rw [planWindowFrom_eq_planChunks hstart hchunk hrequests]
  have hlimit : 0 < maxPipelineBytes := by decide
  have hread : 0 < maxReadChunkBytes := by decide
  have hcast : 0 < u32Max := by decide
  have hmany : 0 < maxPipelineRequests := by decide
  obtain ⟨requests, hsucc⟩ := Nat.exists_eq_succ_of_ne_zero
    (show min maxRequests maxPipelineRequests ≠ 0 by omega)
  rw [hsucc]
  unfold planChunks
  rw [if_pos ⟨hstart, hlimit⟩]
  dsimp only
  rw [if_neg (by omega)]
  exact List.cons_ne_nil _ _

/-- **A window is at most eight chunks, one after the other, of at most 16 MiB.** -/
theorem planWindowFrom_chain (hfits : total ≤ u64Max) (hstart : start < total)
    (hchunk : 0 < chunkBytes) (hrequests : 0 < maxRequests) :
    ∃ stop, windowEnd (planWindowFrom start total chunkBytes maxRequests) = some stop
      ∧ Chain ((planWindowFrom start total chunkBytes maxRequests).map Chunk.piece) start stop
      ∧ (planWindowFrom start total chunkBytes maxRequests).length
          ≤ min maxRequests maxPipelineRequests
      ∧ start < stop ∧ stop ≤ total ∧ stop - start ≤ maxPipelineBytes := by
  have hnonempty := planWindowFrom_ne_nil hstart hchunk hrequests
  obtain ⟨stop, hchain, hstop, hbytes⟩ :=
    planChunks_chain hfits (min (min chunkBytes maxReadChunkBytes) u32Max)
      (min maxRequests maxPipelineRequests) hstart.le (Nat.zero_le maxPipelineBytes)
  have hlength := planChunks_length total (min (min chunkBytes maxReadChunkBytes) u32Max)
    (min maxRequests maxPipelineRequests) start 0
  rw [← planWindowFrom_eq_planChunks hstart hchunk hrequests] at hchain hlength
  refine ⟨stop, windowEnd_of_chain (by omega) hchain hnonempty, hchain, hlength, ?_, hstop, by omega⟩
  -- the first chunk already leads on
  obtain ⟨first, rest, hcons⟩ := List.exists_cons_of_ne_nil hnonempty
  rw [hcons] at hchain
  have hpos := hchain.2.1
  have hsum := hchain.2.2.sum
  omega

/-! ## §2. Windows, one after the other. -/

/-- The windows of a file that is read from `transferred` on, each to its end before the next
is planned; none is left out, unless there are more of them than `windows`. -/
def planFile (total chunkBytes maxRequests : Nat) : Nat → Nat → Option (List (List Chunk))
  | windows, transferred =>
      if transferred < total then
        match windows with
        | 0 => none
        | windows + 1 =>
            let chunks := planWindowFrom transferred total chunkBytes maxRequests
            match windowEnd chunks with
            | none => none
            | some stop => (planFile total chunkBytes maxRequests windows stop).map (chunks :: ·)
      else some []

theorem planFile_chain (hfits : total ≤ u64Max) (hchunk : 0 < chunkBytes)
    (hrequests : 0 < maxRequests) {windows transferred : Nat} (hinside : transferred ≤ total)
    (hwindows : total - transferred ≤ windows) :
    ∃ plan, planFile total chunkBytes maxRequests windows transferred = some plan
      ∧ Chain (plan.flatten.map Chunk.piece) transferred total := by
  induction windows generalizing transferred with
  | zero =>
      have hall : transferred = total := by omega
      unfold planFile
      exact ⟨[], if_neg (by omega), hall⟩
  | succ windows ih =>
      unfold planFile
      by_cases hmore : transferred < total
      · obtain ⟨stop, hstop, hchain, _, hlonger, hwithin, _⟩ :=
          planWindowFrom_chain hfits hmore hchunk hrequests
        -- every window leads on, so that one window less is enough for the rest
        obtain ⟨plan, hplan, hrest⟩ := ih hwithin (show total - stop ≤ windows by omega)
        rw [if_pos hmore]
        dsimp only
        rw [hstop]
        dsimp only
        rw [hplan]
        refine ⟨_, rfl, ?_⟩
        rw [List.flatten_cons, List.map_append]
        exact hchain.append hrest
      · have hall : transferred = total := by omega
        exact ⟨[], if_neg hmore, hall⟩

/-- **Windows tile the file**: each is made of chunks that follow one another inside the file
and the limits, some chunk as long as something is left to read, and together they hold
every position once. -/
theorem planWindowFrom_tiles (hfits : total ≤ u64Max) (start chunkBytes maxRequests : Nat) :
    let window := planWindowFrom start total chunkBytes maxRequests
    (∃ stop, Chain (window.map Chunk.piece) start stop)
      ∧ (∀ chunk ∈ window, 1 ≤ chunk.len ∧ chunk.len ≤ min chunkBytes (2 * 1024 * 1024)
          ∧ chunk.offset + chunk.len ≤ total)
      ∧ window.length ≤ 8
      ∧ (window.map Chunk.len).sum ≤ 16 * 1024 * 1024
      ∧ (window ≠ [] ↔ start < total ∧ 0 < chunkBytes ∧ 0 < maxRequests)
      ∧ (0 < chunkBytes → 0 < maxRequests → ∀ windows, total ≤ windows →
          ∃ plan, planFile total chunkBytes maxRequests windows 0 = some plan
            ∧ Chain (plan.flatten.map Chunk.piece) 0 total
            ∧ ∀ n < total, (plan.flatten.countP fun chunk =>
                decide (chunk.offset ≤ n ∧ n < chunk.offset + chunk.len)) = 1) := by
  dsimp only
  have hfile : 0 < chunkBytes → 0 < maxRequests → ∀ windows, total ≤ windows →
      ∃ plan, planFile total chunkBytes maxRequests windows 0 = some plan
        ∧ Chain (plan.flatten.map Chunk.piece) 0 total
        ∧ ∀ n < total, (plan.flatten.countP fun chunk =>
            decide (chunk.offset ≤ n ∧ n < chunk.offset + chunk.len)) = 1 := by
    intro hchunk hrequests windows hwindows
    obtain ⟨plan, hplan, hchain⟩ :=
      planFile_chain hfits hchunk hrequests (Nat.zero_le total) hwindows
    refine ⟨plan, hplan, hchain, fun n hn => ?_⟩
    have honce := hchain.covers_once (Nat.zero_le n) hn
    rw [List.countP_map] at honce
    exact honce
  by_cases hmore : start < total ∧ 0 < chunkBytes ∧ 0 < maxRequests
  · obtain ⟨hstart, hchunk, hrequests⟩ := hmore
    obtain ⟨stop, _, hchain, hfew, hlonger, hwithin, hsmall⟩ :=
      planWindowFrom_chain hfits hstart hchunk hrequests
    refine ⟨⟨stop, hchain⟩, fun chunk hmem => ?_, ?_, ?_,
      iff_of_true (planWindowFrom_ne_nil hstart hchunk hrequests) ⟨hstart, hchunk, hrequests⟩, hfile⟩
    · obtain ⟨_, hpos, hto⟩ := hchain.inside (List.mem_map.mpr ⟨chunk, hmem, rfl⟩)
      rw [planWindowFrom_eq_planChunks hstart hchunk hrequests] at hmem
      have hlen := planChunks_len hmem
      have hread : maxReadChunkBytes = 2 * 1024 * 1024 := rfl
      have hto : chunk.offset + chunk.len ≤ stop := hto
      have hpos : 0 < chunk.len := hpos
      exact ⟨hpos, by omega, by omega⟩
    · have hlimit : maxPipelineRequests = 8 := rfl
      omega
    · have hsum := hchain.sum
      have hlimit : maxPipelineBytes = 16 * 1024 * 1024 := rfl
      rw [List.map_map] at hsum
      have hsum : start + ((planWindowFrom start total chunkBytes maxRequests).map Chunk.len).sum
          = stop := hsum
      omega
  · rw [planWindowFrom_eq_nil hmore]
    exact ⟨⟨start, rfl⟩, nofun, Nat.zero_le _, Nat.zero_le _,
      iff_of_false (fun h => h rfl) hmore, hfile⟩

theorem planWindowFrom_tiles_smallFile :
    (∃ plan, planFile 5 2 8 5 0 = some plan ∧ Chain (plan.flatten.map Chunk.piece) 0 5)
      ∧ planWindowFrom 0 5 2 8 = [⟨0, 2⟩, ⟨2, 2⟩, ⟨4, 1⟩] := by
  have hfits : 5 ≤ u64Max := by decide
  obtain ⟨plan, hplan, hchain, _⟩ := (planWindowFrom_tiles hfits 0 2 8).2.2.2.2.2
    (by decide) (by decide) 5 (Nat.le_refl 5)
  exact ⟨⟨plan, hplan, hchain⟩, by decide⟩

/-! ## §3. The buffer. -/

structure OrderedChunkBuffer where
  nextOffset : Nat
  chunks : OrdMap Nat Bytes
  bufferedBytes : Nat

namespace OrderedChunkBuffer

def new (nextOffset : Nat) : OrderedChunkBuffer :=
  { nextOffset := nextOffset, chunks := .empty, bufferedBytes := 0 }

def insert (offset : Nat) (data : Bytes) (buffer : OrderedChunkBuffer) :
    Bool × OrderedChunkBuffer :=
  if data = [] ∨ offset < buffer.nextOffset ∨ (buffer.chunks.get? offset).isSome then
    (false, buffer)
  else
    (true,
      { buffer with
        bufferedBytes := saturatingAdd buffer.bufferedBytes data.length
        chunks := buffer.chunks.insert offset data })

/-- The loop of `drain_ready`; every turn takes an entry out. -/
def drainEntries : Nat → OrderedChunkBuffer → List (Nat × Bytes) × OrderedChunkBuffer
  | 0, buffer => ([], buffer)
  | turns + 1, buffer =>
      match buffer.chunks.get? buffer.nextOffset with
      | none => ([], buffer)
      | some data =>
          let rest := drainEntries turns
            { nextOffset := saturatingAdd buffer.nextOffset data.length
              chunks := buffer.chunks.erase buffer.nextOffset
              bufferedBytes := buffer.bufferedBytes - data.length }
          ((buffer.nextOffset, data) :: rest.1, rest.2)

def drainReady (buffer : OrderedChunkBuffer) : List (Nat × Bytes) × OrderedChunkBuffer :=
  drainEntries buffer.chunks.entries.length buffer

/-- The ranges of the chunks in the buffer. -/
def pieces (buffer : OrderedChunkBuffer) : List Piece :=
  buffer.chunks.entries.map fun entry => (entry.1, entry.2.length)

end OrderedChunkBuffer

/-! ## §4. What the buffer holds. -/

/-- The data are the bytes of the file from the offset on. -/
def ReadAt (file : Bytes) (offset : Nat) (data : Bytes) : Prop := data <+: file.drop offset

/-- The chunks are pieces of the file, and counted. -/
structure Holding (file : Bytes) (buffer : OrderedChunkBuffer) : Prop where
  counted : buffer.bufferedBytes = (buffer.pieces.map Prod.snd).sum
  read : ∀ entry ∈ buffer.chunks.entries, ReadAt file entry.1 entry.2

theorem holding_new (file : Bytes) (offset : Nat) : Holding file (.new offset) :=
  ⟨rfl, nofun⟩

/-- **A chunk that covers a range together with the buffer is taken.** -/
theorem Holding.insert {file : Bytes} {buffer : OrderedChunkBuffer} {offset : Nat} {data : Bytes}
    {others : List Piece} {stop : Nat} (h : Holding file buffer) (hread : ReadAt file offset data)
    (hcovers : Covers ((offset, data.length) :: (others ++ buffer.pieces)) buffer.nextOffset stop)
    (hfits : stop ≤ u64Max) :
    ∃ after, buffer.insert offset data = (true, after) ∧ Holding file after
      ∧ after.nextOffset = buffer.nextOffset
      ∧ Covers (others ++ after.pieces) buffer.nextOffset stop := by
  obtain ⟨hfrom, hpos, _⟩ := hcovers.inside List.mem_cons_self
  have hsum := hcovers.sum
  have hfresh : buffer.chunks.get? offset = none := by
    refine OrdMap.get?_eq_none.mpr fun entry hentry heq => ?_
    -- two pieces would start at one place
    refine (List.nodup_cons.mp hcovers.apart).1 (List.mem_map.mpr ⟨(entry.1, entry.2.length), ?_, heq⟩)
    exact List.mem_append_right _ (List.mem_map.mpr ⟨entry, hentry, rfl⟩)
  have hperm := OrdMap.insert_perm data hfresh
  have hpieces : (OrderedChunkBuffer.pieces
        { buffer with
          bufferedBytes := saturatingAdd buffer.bufferedBytes data.length
          chunks := buffer.chunks.insert offset data }).Perm
      ((offset, data.length) :: buffer.pieces) :=
    hperm.map fun entry : Nat × Bytes => (entry.1, entry.2.length)
  refine ⟨_, if_neg ?_, ⟨?_, fun entry hentry => ?_⟩, rfl, ?_⟩
  · rintro (rfl | hbefore | hfound)
    · exact absurd hpos (Nat.lt_irrefl 0)
    · exact absurd hfrom (Nat.not_le.mpr hbefore)
    · rw [hfresh] at hfound
      cases hfound
  · rw [(hpieces.map Prod.snd).sum_eq]
    rw [List.map_cons, List.sum_cons, List.map_append, List.sum_append] at hsum
    rw [List.map_cons, List.sum_cons, ← h.counted]
    rw [← h.counted] at hsum
    dsimp only at hsum ⊢
    rw [saturatingAdd_of_le (by omega)]
    omega
  · rcases List.mem_cons.mp (hperm.mem_iff.mp hentry) with rfl | hold
    · exact hread
    · exact h.read entry hold
  · exact hcovers.perm (List.perm_middle.symm.trans (hpieces.symm.append_left others))

/-- The chunks are pieces of the file, one after the other. -/
def Consecutive (file : Bytes) (chunks : List (Nat × Bytes)) (start stop : Nat) : Prop :=
  Chain (chunks.map fun entry => (entry.1, entry.2.length)) start stop
    ∧ ∀ entry ∈ chunks, ReadAt file entry.1 entry.2

theorem Holding.drainEntries {file : Bytes} {others : List Piece} {stop : Nat}
    (hfits : stop ≤ u64Max) {turns : Nat} {buffer : OrderedChunkBuffer}
    (hturns : buffer.chunks.entries.length ≤ turns) (h : Holding file buffer)
    (hcovers : Covers (others ++ buffer.pieces) buffer.nextOffset stop) :
    Holding file (buffer.drainEntries turns).2
      ∧ Covers (others ++ (buffer.drainEntries turns).2.pieces)
          (buffer.drainEntries turns).2.nextOffset stop
      ∧ (buffer.drainEntries turns).2.chunks.get? (buffer.drainEntries turns).2.nextOffset = none
      ∧ Consecutive file (buffer.drainEntries turns).1 buffer.nextOffset
          (buffer.drainEntries turns).2.nextOffset := by
  induction turns generalizing buffer with
  | zero =>
      have hempty : buffer.chunks.entries = [] := List.eq_nil_of_length_eq_zero (by omega)
      refine ⟨h, hcovers, ?_, rfl, nofun⟩
      show OrdMap.lookup _ buffer.chunks.entries = none
      rw [hempty]
      rfl
  | succ turns ih =>
      unfold OrderedChunkBuffer.drainEntries
      cases hget : buffer.chunks.get? buffer.nextOffset with
      | none => exact ⟨h, hcovers, hget, rfl, nofun⟩
      | some data =>
          dsimp only
          have hmem := OrdMap.get?_eq_some.mp hget
          have hperm := OrdMap.erase_perm hget
          have hpieces : buffer.pieces.Perm
              ((buffer.nextOffset, data.length)
                :: (buffer.chunks.erase buffer.nextOffset).entries.map
                  fun entry => (entry.1, entry.2.length)) :=
            hperm.map fun entry : Nat × Bytes => (entry.1, entry.2.length)
          have hfirst := hcovers.perm ((hpieces.append_left others).trans List.perm_middle)
          obtain ⟨_, hpos, hinside⟩ := hfirst.inside List.mem_cons_self
          dsimp only at hpos hinside
          have hsum : buffer.bufferedBytes = data.length
              + (((buffer.chunks.erase buffer.nextOffset).entries.map
                  fun entry => (entry.1, entry.2.length)).map Prod.snd).sum := by
            rw [h.counted, (hpieces.map Prod.snd).sum_eq, List.map_cons, List.sum_cons]
          rw [saturatingAdd_of_le (by omega)]
          have hrest : Holding file
              { nextOffset := buffer.nextOffset + data.length,
                chunks := buffer.chunks.erase buffer.nextOffset,
                bufferedBytes := buffer.bufferedBytes - data.length } := by
            refine ⟨?_, fun entry hentry => ?_⟩
            · show buffer.bufferedBytes - data.length = _
              rw [hsum, Nat.add_sub_cancel_left]
              rfl
            · exact h.read entry (hperm.mem_iff.mpr (List.mem_cons_of_mem _ hentry))
          have hlength : (buffer.chunks.erase buffer.nextOffset).entries.length ≤ turns := by
            have hlong := hperm.length_eq
            rw [List.length_cons] at hlong
            omega
          obtain ⟨hheld, hcovered, hnone, hchain, hread⟩ := ih hlength hrest hfirst.dropFirst
          refine ⟨hheld, hcovered, hnone, ⟨rfl, hpos, hchain⟩, fun entry hentry => ?_⟩
          rcases List.mem_cons.mp hentry with rfl | hentry
          · exact h.read _ hmem
          · exact hread entry hentry

/-- **What is given out comes next in the file, and nothing that comes next is kept.** -/
theorem Holding.drain {file : Bytes} {buffer : OrderedChunkBuffer} {others : List Piece}
    {stop : Nat} (h : Holding file buffer)
    (hcovers : Covers (others ++ buffer.pieces) buffer.nextOffset stop) (hfits : stop ≤ u64Max) :
    Holding file buffer.drainReady.2
      ∧ Covers (others ++ buffer.drainReady.2.pieces) buffer.drainReady.2.nextOffset stop
      ∧ buffer.drainReady.2.chunks.get? buffer.drainReady.2.nextOffset = none
      ∧ Consecutive file buffer.drainReady.1 buffer.nextOffset buffer.drainReady.2.nextOffset :=
  Holding.drainEntries hfits (Nat.le_refl _) h hcovers

/-- A buffer that alone covers what remains, and holds nothing that comes next, is empty. -/
theorem Holding.done {file : Bytes} {buffer : OrderedChunkBuffer} {stop : Nat}
    (h : Holding file buffer) (hcovers : Covers buffer.pieces buffer.nextOffset stop)
    (hnone : buffer.chunks.get? buffer.nextOffset = none) :
    buffer.nextOffset = stop ∧ buffer.bufferedBytes = 0 := by
  have hsum := hcovers.sum
  rw [← h.counted] at hsum
  by_cases hlt : buffer.nextOffset < stop
  · obtain ⟨n, hmem⟩ := hcovers.exists_first hlt
    obtain ⟨entry, hentry, heq⟩ := List.mem_map.mp hmem
    exact absurd (congrArg Prod.fst heq) (OrdMap.get?_eq_none.mp hnone entry hentry)
  · omega

end QingzhouSSH.Core.Sftp
