/-
  QingzhouSSH.Lib.Utf8 — what the lossy decoding of a byte string is.

  The bytes of a character are those of `String.utf8EncodeChar`.  Where no character
  begins, the longest beginning of a character, or else one byte, is replaced as a whole.
  A reader that decodes character by character decodes a stream this way, wherever the
  pieces of the stream were cut.

  Main results:
    * `Decodes.lossy_iff` — what such a reader reads is the lossy decoding;
    * `Decodes.left_le` — what it leaves is at most three bytes.
-/
import Mathlib.Data.List.Basic
import QingzhouSSH.Lib.Scan

namespace QingzhouSSH.Lib.Utf8

open String (utf8EncodeChar)

/-! ## §1. Lossy decoding. -/

/-- The replacement character. -/
def replacement : Char := '\uFFFD'

/-- A character comes first. -/
def Starts (s : List UInt8) : Prop := ∃ c, utf8EncodeChar c <+: s

/-- The beginning of the bytes of a character. -/
def Partial (part : List UInt8) : Prop := ∃ c, part <+: utf8EncodeChar c

/-- What is replaced where no character comes first: the longest beginning of a character,
or one byte where there is none. -/
structure MaximalSubpart (part s : List UInt8) : Prop where
  isPrefix : part <+: s
  nonempty : part ≠ []
  begins : part.length = 1 ∨ Partial part
  longest : ∀ longer, longer <+: s → part.length < longer.length → ¬Partial longer

/-- The text is the lossy decoding of the bytes. -/
inductive Lossy : List UInt8 → List Char → Prop where
  | done : Lossy [] []
  | char {c : Char} {rest : List UInt8} {text : List Char} (h : Lossy rest text) :
      Lossy (utf8EncodeChar c ++ rest) (c :: text)
  | bad {part rest : List UInt8} {text : List Char} (hnone : ¬Starts (part ++ rest))
      (hpart : MaximalSubpart part (part ++ rest)) (h : Lossy rest text) :
      Lossy (part ++ rest) (replacement :: text)

theorem utf8EncodeChar_ne_nil (c : Char) : utf8EncodeChar c ≠ [] := by
  intro h
  have hlen : (utf8EncodeChar c).length = 0 := by rw [h]; rfl
  rw [String.length_utf8EncodeChar] at hlen
  have hpos := c.utf8Size_pos
  omega

theorem utf8EncodeChar_length_le (c : Char) : (utf8EncodeChar c).length ≤ 4 := by
  rw [String.length_utf8EncodeChar]
  exact c.utf8Size_le_four

theorem Partial.mono {part longer : List UInt8} (h : Partial longer) (hfront : part <+: longer) :
    Partial part := by
  obtain ⟨c, hc⟩ := h
  exact ⟨c, hfront.trans hc⟩

theorem not_starts_nil : ¬Starts [] := by
  rintro ⟨c, hc⟩
  exact utf8EncodeChar_ne_nil c (List.prefix_nil.mp hc)

/-- The part ends where the next byte does not go on with a character. -/
theorem MaximalSubpart.of_next {part rest : List UInt8} (hne : part ≠ [])
    (hbegins : part.length = 1 ∨ Partial part)
    (hnext : ∀ b more, rest = b :: more → ¬Partial (part ++ [b])) :
    MaximalSubpart part (part ++ rest) := by
  refine ⟨List.prefix_append part rest, hne, hbegins, fun longer hlonger hlt hunfinished => ?_⟩
  have hshort : part <+: longer :=
    List.prefix_of_prefix_length_le (List.prefix_append part rest) hlonger (Nat.le_of_lt hlt)
  obtain ⟨tail, rfl⟩ := hshort
  have htail : tail <+: rest := (List.prefix_append_right_inj part).mp hlonger
  cases tail with
  | nil =>
      rw [List.append_nil] at hlt
      exact Nat.lt_irrefl _ hlt
  | cons b tail =>
      obtain ⟨more, hmore⟩ := htail
      refine hnext b (tail ++ more) hmore.symm (hunfinished.mono ?_)
      exact (List.prefix_append_right_inj part).mpr ⟨tail, rfl⟩

theorem MaximalSubpart.unique {part part' s : List UInt8} (h : MaximalSubpart part s)
    (h' : MaximalSubpart part' s) : part.length = part'.length := by
  -- the longer one of two would be a beginning of a character
  have hle : ∀ {p q : List UInt8}, MaximalSubpart p s → MaximalSubpart q s →
      ¬p.length < q.length := by
    intro p q hp hq hlt
    have hpos := List.length_pos_of_ne_nil hp.nonempty
    rcases hq.begins with hone | hunfinished
    · omega
    · exact hp.longest q hq.isPrefix hlt hunfinished
  have hno := hle h h'
  have hno' := hle h' h
  omega

/-! ## §2. Readers. -/

/-- The reader takes the character that comes first, the part to be replaced where there is
none, and nothing while the bytes may still become a character. -/
structure Decodes (read : Scan.Reader UInt8 Char) : Prop where
  reads : ∀ c rest, read (utf8EncodeChar c ++ rest) = some (c, rest)
  replaces : ∀ {s ch rest}, read s = some (ch, rest) → ¬Starts s →
    ch = replacement ∧ ∃ part, s = part ++ rest ∧ MaximalSubpart part s
  waits : ∀ {s}, read s = none → s = [] ∨ Partial s

variable {read : Scan.Reader UInt8 Char}

namespace Decodes

theorem reads_of_starts (h : Decodes read) {s : List UInt8} (hs : Starts s) :
    ∃ c rest, s = utf8EncodeChar c ++ rest ∧ read s = some (c, rest) := by
  obtain ⟨c, rest, rfl⟩ := hs
  exact ⟨c, rest, rfl, h.reads c rest⟩

theorem not_starts_of_none (h : Decodes read) {s : List UInt8} (hread : read s = none) :
    ¬Starts s := by
  intro hs
  obtain ⟨c, rest, _, hsome⟩ := h.reads_of_starts hs
  rw [hread] at hsome
  cases hsome

/-- Every item leaves fewer bytes, so that the whole input is read. -/
theorem advances (h : Decodes read) {s rest : List UInt8} {ch : Char}
    (hread : read s = some (ch, rest)) : rest.length < s.length := by
  by_cases hs : Starts s
  · obtain ⟨c, more, hsplit, hsome⟩ := h.reads_of_starts hs
    rw [hread] at hsome
    obtain ⟨rfl, rfl⟩ := Prod.mk.inj (Option.some.inj hsome)
    have hpos := List.length_pos_of_ne_nil (utf8EncodeChar_ne_nil ch)
    rw [hsplit, List.length_append]
    omega
  · obtain ⟨_, part, hsplit, hpart⟩ := h.replaces hread hs
    have hpos := List.length_pos_of_ne_nil hpart.nonempty
    rw [hsplit, List.length_append]
    omega

/-- What is left while a character may still follow is at most three bytes. -/
theorem left_le (h : Decodes read) {s : List UInt8} (hread : read s = none) : s.length ≤ 3 := by
  rcases h.waits hread with rfl | ⟨c, hc⟩
  · exact Nat.zero_le 3
  · have hlen := hc.length_le
    have hfour := utf8EncodeChar_length_le c
    -- four bytes would be the character itself
    by_cases hall : s.length = (utf8EncodeChar c).length
    · have heq : s = utf8EncodeChar c := hc.eq_of_length hall
      exact absurd ⟨c, heq ▸ List.prefix_refl _⟩ (h.not_starts_of_none hread)
    · omega

/-- The text that a reader has read when the input ends. -/
def finished (read : Scan.Reader UInt8 Char) (s : List UInt8) : List Char :=
  (Scan.readAll read s).1 ++ if (Scan.readAll read s).2.isEmpty then [] else [replacement]

theorem finished_of_none {s : List UInt8} (hread : read s = none) :
    finished read s = if s.isEmpty then [] else [replacement] := by
  rw [finished, Scan.readAll_of_none hread, List.nil_append]

theorem finished_nil (h : Decodes read) : finished read [] = [] := by
  cases hread : read [] with
  | none =>
      rw [finished_of_none hread]
      rfl
  | some item =>
      obtain ⟨ch, rest⟩ := item
      exact absurd (h.advances hread) (Nat.not_lt_zero _)

theorem finished_of_some (hinc : Scan.Incremental read) {s rest : List UInt8} {ch : Char}
    (hread : read s = some (ch, rest)) : finished read s = ch :: finished read rest := by
  rw [finished, Scan.readAll_of_some hinc hread]
  rfl

theorem lossy_finished (h : Decodes read) (hinc : Scan.Incremental read) (s : List UInt8) :
    Lossy s (finished read s) := by
  induction s using Scan.readAll_induction hinc with
  | stop s hread =>
      rw [finished_of_none hread]
      cases s with
      | nil => exact .done
      | cons b s =>
          -- what the input ends with is replaced as a whole
          have hpart : Partial (b :: s) := (h.waits hread).resolve_left (List.cons_ne_nil b s)
          have hnone := h.not_starts_of_none hread
          rw [← List.append_nil (b :: s)] at hnone ⊢
          refine .bad hnone (.of_next (List.cons_ne_nil b s) (.inr hpart) nofun) .done
  | next s ch rest hread ih =>
      rw [finished_of_some hinc hread]
      by_cases hs : Starts s
      · obtain ⟨c, more, rfl, hsome⟩ := h.reads_of_starts hs
        rw [hread] at hsome
        obtain ⟨rfl, rfl⟩ := Prod.mk.inj (Option.some.inj hsome)
        exact .char ih
      · obtain ⟨rfl, part, rfl, hpart⟩ := h.replaces hread hs
        exact .bad hs hpart ih

/-- **What is read of a stream is its lossy decoding, and there is only one.** -/
theorem lossy_iff (h : Decodes read) (hinc : Scan.Incremental read) {s : List UInt8}
    {text : List Char} : Lossy s text ↔ text = finished read s := by
  constructor
  · intro hlossy
    induction hlossy with
    | done => exact h.finished_nil.symm
    | char hrest ih =>
        rw [finished_of_some hinc (h.reads _ _), ← ih]
    | @bad part rest text hnone hpart hrest ih =>
        cases hread : read (part ++ rest) with
        | none =>
            rw [finished_of_none hread]
            have hwhole : part ++ rest ≠ [] := fun hnil =>
              hpart.nonempty (List.append_eq_nil_iff.mp hnil).1
            have hunfinished := (h.waits hread).resolve_left hwhole
            -- the whole rest may still become a character, so that nothing follows the part
            have hlast : rest = [] := by
              by_contra hmore
              have hpos := List.length_pos_of_ne_nil hmore
              refine hpart.longest (part ++ rest) (List.prefix_refl _) ?_ hunfinished
              rw [List.length_append]
              omega
            subst hlast
            rw [ih, h.finished_nil, if_neg (fun hnil => hwhole (List.isEmpty_iff.mp hnil))]
        | some item =>
            obtain ⟨ch, more⟩ := item
            obtain ⟨rfl, part', hsplit, hpart'⟩ := h.replaces hread hnone
            obtain ⟨_, rfl⟩ := List.append_inj hsplit (MaximalSubpart.unique hpart hpart')
            rw [finished_of_some hinc hread, ← ih]
  · rintro rfl
    exact lossy_finished h hinc s

end Decodes

end QingzhouSSH.Lib.Utf8
