/-
  QingzhouSSH.Domain.Events — output of a running command.

  Bytes arrive in packets; `Utf8Chunker` decodes them and cuts the text into events
  of bounded size.

  Main results:
    * `readChar_incremental` — a decoded character stays decoded;
    * `splitUtf8_flatten` — the events carry the whole text.
-/
import QingzhouSSH.Core.Error
import QingzhouSSH.Lib.Scan

namespace QingzhouSSH.Domain

open String (utf8Len)
open QingzhouSSH.Lib

def maxEventBytes : Nat := 32 * 1024

def maxOutputBytes : Nat := 32 * 1024 * 1024

/-! ## §1. Decoding. -/

def replacementCharacter : Char := '\uFFFD'

/-- The length that a first byte announces and the range of the second byte. -/
def leadByte (a : UInt8) : Option (Nat × UInt8 × UInt8) :=
  if 0xC2 ≤ a ∧ a ≤ 0xDF then some (2, 0x80, 0xBF)
  else if a = 0xE0 then some (3, 0xA0, 0xBF)
  else if a = 0xED then some (3, 0x80, 0x9F)
  else if 0xE1 ≤ a ∧ a ≤ 0xEF then some (3, 0x80, 0xBF)
  else if a = 0xF0 then some (4, 0x90, 0xBF)
  else if 0xF1 ≤ a ∧ a ≤ 0xF3 then some (4, 0x80, 0xBF)
  else if a = 0xF4 then some (4, 0x80, 0x8F)
  else none

def isContinuation (b : UInt8) : Bool := 0x80 ≤ b && b ≤ 0xBF

/-- The character of these bytes, of which all but the first carry six bits. -/
def codePoint (lead : Nat) (tail : List UInt8) : Char :=
  Char.ofNat (tail.foldl (fun code b => code * 64 + (b.toNat - 0x80)) lead)

/-- One turn of the loop of `drain_decodable`: the first character, or the
replacement character for the bytes that `error_len` reports, or nothing while the
character is incomplete. -/
def readChar : Scan.Reader UInt8 Char
  | [] => none
  | a :: rest =>
      if a < 0x80 then some (Char.ofNat a.toNat, rest)
      else
        match leadByte a, rest with
        | none, _ => some (replacementCharacter, rest)
        | some _, [] => none
        | some (width, low, high), b :: rest =>
            if b < low ∨ high < b then some (replacementCharacter, b :: rest)
            else if width = 2 then some (codePoint (a.toNat - 0xC0) [b], rest)
            else
              match rest with
              | [] => none
              | c :: rest =>
                  if !isContinuation c then some (replacementCharacter, c :: rest)
                  else if width = 3 then some (codePoint (a.toNat - 0xE0) [b, c], rest)
                  else
                    match rest with
                    | [] => none
                    | d :: rest =>
                        if !isContinuation d then some (replacementCharacter, d :: rest)
                        else some (codePoint (a.toNat - 0xF0) [b, c, d], rest)

theorem some_append {ch ch' : Char} {rest r : List UInt8} (t : List UInt8)
    (h : some (ch, rest) = some (ch', r)) : some (ch, rest ++ t) = some (ch', r ++ t) := by
  cases h
  rfl

/-- **What has been decoded does not depend on the bytes that follow.** -/
theorem readChar_incremental : Scan.Incremental readChar where
  advances := by
    intro s ch r h
    have hread : ∀ {x : Char} {rest : List UInt8}, some (x, rest) = some (ch, r) →
        r.length = rest.length := by
      rintro x rest heq
      cases heq
      rfl
    unfold readChar at h
    repeat' split at h
    -- the branches that ask for more bytes read nothing
    all_goals first
      | have hlen := hread h
        simp only [List.length_cons] at hlen ⊢
        omega
      | cases h
  stable := by
    intro s ch r t h
    cases s with
    | nil => exact absurd h (by simp [readChar])
    | cons a rest =>
        simp only [readChar, List.cons_append] at h ⊢
        split at h
        next hascii =>
          rw [if_pos hascii]
          exact some_append t h
        next hascii =>
          rw [if_neg hascii]
          cases hlead : leadByte a with
          | none =>
              rw [hlead] at h
              exact some_append t h
          | some range =>
              obtain ⟨width, low, high⟩ := range
              rw [hlead] at h
              -- a byte that is read is there, and the later ones stay in their places
              cases rest with
              | nil => exact absurd h (by simp)
              | cons b rest =>
                  simp only [List.cons_append] at h ⊢
                  split at h
                  next hrange =>
                    rw [if_pos hrange]
                    exact some_append t h
                  next hrange =>
                    rw [if_neg hrange]
                    split at h
                    next htwo =>
                      rw [if_pos htwo]
                      exact some_append t h
                    next htwo =>
                      rw [if_neg htwo]
                      cases rest with
                      | nil => exact absurd h (by simp)
                      | cons c rest =>
                          simp only [List.cons_append] at h ⊢
                          split at h
                          next hcont =>
                            rw [if_pos hcont]
                            exact some_append t h
                          next hcont =>
                            rw [if_neg hcont]
                            split at h
                            next hthree =>
                              rw [if_pos hthree]
                              exact some_append t h
                            next hthree =>
                              rw [if_neg hthree]
                              cases rest with
                              | nil => exact absurd h (by simp)
                              | cons d rest =>
                                  simp only [List.cons_append] at h ⊢
                                  split at h
                                  next hlast =>
                                    rw [if_pos hlast]
                                    exact some_append t h
                                  next hlast =>
                                    rw [if_neg hlast]
                                    exact some_append t h

/-! ## §2. Chunks. -/

/-- The loop of `split_utf8`, with the chunk that is being filled. -/
def splitFrom (maxBytes : Nat) : Text → Text → List Text
  | current, [] => if current.isEmpty then [] else [current]
  | current, c :: rest =>
      if maxBytes < utf8Len (current ++ [c]) then current :: splitFrom maxBytes [c] rest
      else splitFrom maxBytes (current ++ [c]) rest

/-- `split_utf8`. -/
def splitUtf8 (value : Text) (maxBytes : Nat) : List Text := splitFrom maxBytes [] value

theorem splitFrom_flatten (maxBytes : Nat) (current value : Text) :
    (splitFrom maxBytes current value).flatten = current ++ value := by
  induction value generalizing current with
  | nil =>
      rw [splitFrom, List.append_nil]
      split
      next h => rw [List.isEmpty_iff.mp h, List.flatten_nil]
      next => rw [List.flatten_singleton]
  | cons c rest ih =>
      rw [splitFrom]
      split
      next => rw [List.flatten_cons, ih, List.singleton_append]
      next => rw [ih, List.append_assoc, List.singleton_append]

/-- **The chunks of a text are the text.** -/
theorem splitUtf8_flatten (value : Text) (maxBytes : Nat) :
    (splitUtf8 value maxBytes).flatten = value := splitFrom_flatten maxBytes [] value

/-- A decoder; its chunks hold at least one character and at most an event. -/
structure Utf8Chunker where
  maxBytes : Nat
  pending : List UInt8
  bounded : 4 ≤ maxBytes ∧ maxBytes ≤ maxEventBytes

namespace Utf8Chunker

/-- `Utf8Chunker::new`. -/
def new (maxBytes : Nat) : AppResult Utf8Chunker :=
  if h : 4 ≤ maxBytes ∧ maxBytes ≤ maxEventBytes then
    .ok { maxBytes := maxBytes, pending := [], bounded := h }
  else
    .error (.validation ("UTF-8 事件片段上限必须在 4 到 ".toList ++ showNat maxEventBytes
      ++ " 字节之间".toList))

/-- `push`. -/
def push (chunker : Utf8Chunker) (bytes : List UInt8) : List Text × Utf8Chunker :=
  let (text, pending) := Scan.readAll readChar (chunker.pending ++ bytes)
  (splitUtf8 text chunker.maxBytes, { chunker with pending := pending })

/-- `finish`: an incomplete character becomes the replacement character. -/
def finish (chunker : Utf8Chunker) : List Text :=
  let (text, pending) := Scan.readAll readChar chunker.pending
  splitUtf8 (text ++ if pending.isEmpty then [] else [replacementCharacter]) chunker.maxBytes

end Utf8Chunker

/-! ## §3. The output budget. -/

structure OutputBudget where
  limit : Nat
  consumed : Nat
  deriving Repr, DecidableEq

/-- `OutputBudget::consume`; the sum is checked in 64 bits. -/
def OutputBudget.consume (budget : OutputBudget) (bytes : Nat) : AppResult OutputBudget :=
  let next := budget.consumed + bytes
  if 2 ^ 64 ≤ next ∨ budget.limit < next then .error (.outputLimitExceeded budget.limit)
  else .ok { budget with consumed := next }

/-! ## §4. Events. -/

inductive OutputStream where
  | stdout
  | stderr
  deriving Repr, DecidableEq

/-- An output event; the time it is sent at is left out. -/
structure ExecutionEvent where
  sequence : Nat
  stream : OutputStream
  text : Text
  totalBytes : Nat
  deriving Repr, DecidableEq

end QingzhouSSH.Domain
