/-
  QingzhouSSH.Domain.Utf8Decoding — the chunks of an output are its lossy decoding.

  `readChar` takes one character at a time where the source asks `str::from_utf8` for as
  many as there are; `drainDecodable` is the loop as the source has it.

  Main results:
    * `readChar_decodes` — the decoder takes characters and maximal subparts;
    * `eq_drainDecodable` — both loops read the same;
    * `chunks_lossless` — however a stream is cut, its chunks are its lossy decoding.
-/
import QingzhouSSH.Domain.Events
import QingzhouSSH.Lib.Utf8

namespace QingzhouSSH.Domain

open String (utf8Len utf8EncodeChar)
open QingzhouSSH.Lib
open QingzhouSSH.Lib.Utf8

/-! ## §1. The bytes of a character. -/

/-- The bits that the first byte of a character carries. -/
def leadBits (width : Nat) (a : UInt8) : Nat :=
  a.toNat - (if width = 2 then 0xC0 else if width = 3 then 0xE0 else 0xF0)

/-- The bytes that may follow a first byte: the second in its range, and continuations. -/
def Trails (low high : UInt8) : List UInt8 → Prop
  | [] => True
  | b :: rest => low ≤ b ∧ b ≤ high ∧ ∀ c ∈ rest, isContinuation c = true

theorem isContinuation_iff {b : UInt8} :
    isContinuation b = true ↔ 0x80 ≤ b.toNat ∧ b.toNat ≤ 0xBF := by
  unfold isContinuation
  rw [Bool.and_eq_true, decide_eq_true_eq, decide_eq_true_eq, UInt8.le_iff_toNat_le,
    UInt8.le_iff_toNat_le]
  rfl

/-- The six bits of a continuation. -/
theorem isContinuation_ofNat (n : Nat) : isContinuation (UInt8.ofNat (n % 64 + 0x80)) = true := by
  rw [isContinuation_iff, UInt8.toNat_ofNat']
  omega

/-- The first bytes, how many bytes they announce, and the range of the second. -/
inductive LeadRange : Nat → Nat → UInt8 → UInt8 → Prop where
  | two {a : Nat} (hlow : 0xC2 ≤ a) (hhigh : a ≤ 0xDF) : LeadRange a 2 0x80 0xBF
  | threeFirst {a : Nat} (h : a = 0xE0) : LeadRange a 3 0xA0 0xBF
  | threeSurrogate {a : Nat} (h : a = 0xED) : LeadRange a 3 0x80 0x9F
  | three {a : Nat} (hlow : 0xE1 ≤ a) (hhigh : a ≤ 0xEF) (hne : a ≠ 0xED) : LeadRange a 3 0x80 0xBF
  | fourFirst {a : Nat} (h : a = 0xF0) : LeadRange a 4 0x90 0xBF
  | four {a : Nat} (hlow : 0xF1 ≤ a) (hhigh : a ≤ 0xF3) : LeadRange a 4 0x80 0xBF
  | fourLast {a : Nat} (h : a = 0xF4) : LeadRange a 4 0x80 0x8F

theorem leadByte_eq_some {a : UInt8} {width : Nat} {low high : UInt8} :
    leadByte a = some (width, low, high) ↔ LeadRange a.toNat width low high := by
  unfold leadByte
  simp only [UInt8.le_iff_toNat_le, ← UInt8.toNat_inj, UInt8.reduceToNat]
  constructor
  · intro h
    repeat' split at h
    all_goals simp only [Option.some.injEq, Prod.mk.injEq, reduceCtorEq] at h
    all_goals obtain ⟨rfl, rfl, rfl⟩ := h
    all_goals rename_i hrange
    · exact .two hrange.1 hrange.2
    · exact .threeFirst hrange
    · exact .threeSurrogate hrange
    · exact .three hrange.1 hrange.2 ‹_›
    · exact .fourFirst hrange
    · exact .four hrange.1 hrange.2
    · exact .fourLast hrange
  · generalize a.toNat = n
    intro h
    cases h
    all_goals
      repeat' split
      all_goals first | rfl | omega

theorem val_valid (c : Char) : c.toNat < 0xD800 ∨ (0xDFFF < c.toNat ∧ c.toNat < 0x110000) := c.valid

theorem utf8EncodeChar_one {c : Char} (h : c.toNat ≤ 0x7F) :
    utf8EncodeChar c = [UInt8.ofNat c.toNat] := by
  have hv : c.val.toNat = c.toNat := rfl
  unfold utf8EncodeChar
  dsimp only
  rw [hv, if_pos h]

theorem utf8EncodeChar_two {c : Char} (hlow : 0x7F < c.toNat) (hhigh : c.toNat ≤ 0x7FF) :
    utf8EncodeChar c
      = [UInt8.ofNat (c.toNat / 64 % 0x20 + 0xC0), UInt8.ofNat (c.toNat % 64 + 0x80)] := by
  have hv : c.val.toNat = c.toNat := rfl
  unfold utf8EncodeChar
  dsimp only
  rw [hv, if_neg (by omega), if_pos (by omega)]

theorem utf8EncodeChar_three {c : Char} (hlow : 0x7FF < c.toNat) (hhigh : c.toNat ≤ 0xFFFF) :
    utf8EncodeChar c
      = [UInt8.ofNat (c.toNat / 4096 % 0x10 + 0xE0), UInt8.ofNat (c.toNat / 64 % 64 + 0x80),
          UInt8.ofNat (c.toNat % 64 + 0x80)] := by
  have hv : c.val.toNat = c.toNat := rfl
  unfold utf8EncodeChar
  dsimp only
  rw [hv, if_neg (by omega), if_neg (by omega), if_pos (by omega)]

theorem utf8EncodeChar_four {c : Char} (hlow : 0xFFFF < c.toNat) :
    utf8EncodeChar c
      = [UInt8.ofNat (c.toNat / 262144 % 0x08 + 0xF0), UInt8.ofNat (c.toNat / 4096 % 64 + 0x80),
          UInt8.ofNat (c.toNat / 64 % 64 + 0x80), UInt8.ofNat (c.toNat % 64 + 0x80)] := by
  have hv : c.val.toNat = c.toNat := rfl
  unfold utf8EncodeChar
  dsimp only
  rw [hv, if_neg (by omega), if_neg (by omega), if_neg (by omega)]

/-- A byte that carries its number. -/
theorem toNat_ofNat_of_lt {n : Nat} (h : n < 256) : (UInt8.ofNat n).toNat = n := by
  rw [UInt8.toNat_ofNat']
  omega

theorem within_of_toNat {n : Nat} (low high : UInt8) (hlow : low.toNat ≤ n) (hhigh : n ≤ high.toNat) :
    low ≤ UInt8.ofNat n ∧ UInt8.ofNat n ≤ high := by
  have hn := high.toNat_lt
  rw [UInt8.le_iff_toNat_le, UInt8.le_iff_toNat_le, toNat_ofNat_of_lt (by omega)]
  exact ⟨hlow, hhigh⟩

/-- The first two bytes of three; what would be overlong or a surrogate has another second. -/
theorem leadRange_three {n : Nat} (hvalid : n < 0xD800 ∨ 0xDFFF < n) (hlow : 0x7FF < n)
    (hhigh : n ≤ 0xFFFF) :
    ∃ low high, LeadRange (n / 4096 % 0x10 + 0xE0) 3 low high
      ∧ low ≤ UInt8.ofNat (n / 64 % 64 + 0x80) ∧ UInt8.ofNat (n / 64 % 64 + 0x80) ≤ high := by
  by_cases hfirst : n / 4096 = 0
  · have hsecond : 0xA0 ≤ n / 64 % 64 + 0x80 ∧ n / 64 % 64 + 0x80 ≤ 0xBF := by omega
    exact ⟨0xA0, 0xBF, .threeFirst (by omega), within_of_toNat _ _ hsecond.1 hsecond.2⟩
  · by_cases hsurrogate : n / 4096 = 13
    · have hsecond : 0x80 ≤ n / 64 % 64 + 0x80 ∧ n / 64 % 64 + 0x80 ≤ 0x9F := by omega
      exact ⟨0x80, 0x9F, .threeSurrogate (by omega), within_of_toNat _ _ hsecond.1 hsecond.2⟩
    · have hsecond : 0x80 ≤ n / 64 % 64 + 0x80 ∧ n / 64 % 64 + 0x80 ≤ 0xBF := by omega
      exact ⟨0x80, 0xBF, .three (by omega) (by omega) (by omega),
        within_of_toNat _ _ hsecond.1 hsecond.2⟩

/-- The first two bytes of four; what would be overlong or too large has another second. -/
theorem leadRange_four {n : Nat} (hlow : 0xFFFF < n) (hhigh : n < 0x110000) :
    ∃ low high, LeadRange (n / 262144 % 0x08 + 0xF0) 4 low high
      ∧ low ≤ UInt8.ofNat (n / 4096 % 64 + 0x80) ∧ UInt8.ofNat (n / 4096 % 64 + 0x80) ≤ high := by
  by_cases hfirst : n / 262144 = 0
  · have hsecond : 0x90 ≤ n / 4096 % 64 + 0x80 ∧ n / 4096 % 64 + 0x80 ≤ 0xBF := by omega
    exact ⟨0x90, 0xBF, .fourFirst (by omega), within_of_toNat _ _ hsecond.1 hsecond.2⟩
  · by_cases hfinal : n / 262144 = 4
    · have hsecond : 0x80 ≤ n / 4096 % 64 + 0x80 ∧ n / 4096 % 64 + 0x80 ≤ 0x8F := by omega
      exact ⟨0x80, 0x8F, .fourLast (by omega), within_of_toNat _ _ hsecond.1 hsecond.2⟩
    · have hsecond : 0x80 ≤ n / 4096 % 64 + 0x80 ∧ n / 4096 % 64 + 0x80 ≤ 0xBF := by omega
      exact ⟨0x80, 0xBF, .four (by omega) (by omega), within_of_toNat _ _ hsecond.1 hsecond.2⟩

/-- **The bytes of a character**: one below 128, or a first byte and those that it announces. -/
theorem utf8EncodeChar_shape (c : Char) :
    (c.toNat < 0x80 ∧ utf8EncodeChar c = [UInt8.ofNat c.toNat])
      ∨ ∃ a tail low high, utf8EncodeChar c = a :: tail
        ∧ leadByte a = some (tail.length + 1, low, high) ∧ tail ≠ [] ∧ Trails low high tail
        ∧ codePoint (leadBits (tail.length + 1) a) tail = c := by
  have hvalid := val_valid c
  have hchar : Char.ofNat c.toNat = c := Char.ofNat_toNat c
  -- the character is put together from its bits
  have hcode : ∀ n, n = c.toNat → Char.ofNat n = c := fun n hn => hn ▸ hchar
  by_cases hone : c.toNat ≤ 0x7F
  · exact .inl ⟨by omega, utf8EncodeChar_one hone⟩
  · refine .inr ?_
    by_cases htwo : c.toNat ≤ 0x7FF
    · have hbits : c.toNat / 64 % 0x20 + 0xC0 < 256 := by omega
      have hlast : c.toNat % 64 + 0x80 < 256 := by omega
      have hsecond : 0x80 ≤ c.toNat % 64 + 0x80 ∧ c.toNat % 64 + 0x80 ≤ 0xBF := by omega
      obtain ⟨hfrom, hto⟩ := within_of_toNat 0x80 0xBF hsecond.1 hsecond.2
      refine ⟨_, _, 0x80, 0xBF, utf8EncodeChar_two (by omega) htwo, ?_, List.cons_ne_nil _ _,
        ⟨hfrom, hto, nofun⟩, hcode _ ?_⟩
      · rw [leadByte_eq_some, toNat_ofNat_of_lt hbits]
        exact .two (by omega) (by omega)
      · show ((UInt8.ofNat _).toNat - 0xC0) * 64 + ((UInt8.ofNat _).toNat - 0x80) = c.toNat
        rw [toNat_ofNat_of_lt hbits, toNat_ofNat_of_lt hlast]
        omega
    · by_cases hthree : c.toNat ≤ 0xFFFF
      · have hbits : c.toNat / 4096 % 0x10 + 0xE0 < 256 := by omega
        have hmiddle : c.toNat / 64 % 64 + 0x80 < 256 := by omega
        have hlast : c.toNat % 64 + 0x80 < 256 := by omega
        obtain ⟨low, high, hrange, hfrom, hto⟩ :=
          leadRange_three (by omega) (show 0x7FF < c.toNat by omega) hthree
        refine ⟨_, _, low, high, utf8EncodeChar_three (by omega) hthree, ?_,
          List.cons_ne_nil _ _, ⟨hfrom, hto, ?_⟩, hcode _ ?_⟩
        · rw [leadByte_eq_some, toNat_ofNat_of_lt hbits]
          exact hrange
        · intro b hb
          rw [List.mem_singleton.mp hb]
          exact isContinuation_ofNat _
        · show (((UInt8.ofNat _).toNat - 0xE0) * 64 + ((UInt8.ofNat _).toNat - 0x80)) * 64
            + ((UInt8.ofNat _).toNat - 0x80) = c.toNat
          rw [toNat_ofNat_of_lt hbits, toNat_ofNat_of_lt hmiddle, toNat_ofNat_of_lt hlast]
          omega
      · have hbits : c.toNat / 262144 % 0x08 + 0xF0 < 256 := by omega
        have hsecond : c.toNat / 4096 % 64 + 0x80 < 256 := by omega
        have hmiddle : c.toNat / 64 % 64 + 0x80 < 256 := by omega
        have hlast : c.toNat % 64 + 0x80 < 256 := by omega
        obtain ⟨low, high, hrange, hfrom, hto⟩ :=
          leadRange_four (show 0xFFFF < c.toNat by omega) (by omega)
        refine ⟨_, _, low, high, utf8EncodeChar_four (by omega), ?_,
          List.cons_ne_nil _ _, ⟨hfrom, hto, ?_⟩, hcode _ ?_⟩
        · rw [leadByte_eq_some, toNat_ofNat_of_lt hbits]
          exact hrange
        · intro b hb
          rcases List.mem_cons.mp hb with rfl | hb
          · exact isContinuation_ofNat _
          · rw [List.mem_singleton.mp hb]
            exact isContinuation_ofNat _
        · show ((((UInt8.ofNat _).toNat - 0xF0) * 64 + ((UInt8.ofNat _).toNat - 0x80)) * 64
            + ((UInt8.ofNat _).toNat - 0x80)) * 64 + ((UInt8.ofNat _).toNat - 0x80) = c.toNat
          rw [toNat_ofNat_of_lt hbits, toNat_ofNat_of_lt hsecond, toNat_ofNat_of_lt hmiddle,
            toNat_ofNat_of_lt hlast]
          omega

theorem toNat_ofNat_char {n : Nat} (h : n < 0xD800 ∨ (0xDFFF < n ∧ n < 0x110000)) :
    (Char.ofNat n).toNat = n := by
  have hvalid : n.isValidChar := h
  rw [Char.ofNat, dif_pos hvalid]
  rfl

theorem ofNat_eq_of_toNat {b : UInt8} {n : Nat} (h : n = b.toNat) : UInt8.ofNat n = b := by
  rw [h, UInt8.ofNat_toNat]

/-- **The bytes that a first byte announces make up a character.** -/
theorem utf8EncodeChar_codePoint {a : UInt8} {tail : List UInt8} {low high : UInt8}
    (hlead : leadByte a = some (tail.length + 1, low, high)) (htrails : Trails low high tail) :
    utf8EncodeChar (codePoint (leadBits (tail.length + 1) a) tail) = a :: tail := by
  rw [leadByte_eq_some] at hlead
  match tail, htrails with
  | [b], ⟨hlow, hhigh, _⟩ =>
      obtain ⟨hfirst, hlast⟩ : (0xC2 ≤ a.toNat ∧ a.toNat ≤ 0xDF) ∧ 0x80 ≤ b.toNat ∧ b.toNat ≤ 0xBF := by
        cases hlead with
        | two hfrom hto => exact ⟨⟨hfrom, hto⟩, hlow, hhigh⟩
      show utf8EncodeChar (Char.ofNat ((a.toNat - 0xC0) * 64 + (b.toNat - 0x80))) = [a, b]
      have hvalue := toNat_ofNat_char
        (show (a.toNat - 0xC0) * 64 + (b.toNat - 0x80) < 0xD800 ∨ _ from .inl (by omega))
      rw [utf8EncodeChar_two (by omega) (by omega), hvalue, ofNat_eq_of_toNat (b := a) (by omega),
        ofNat_eq_of_toNat (b := b) (by omega)]
  | [b, c], ⟨hlow, hhigh, hrest⟩ =>
      have hc := isContinuation_iff.mp (hrest c List.mem_cons_self)
      obtain ⟨hfirst, hsecond, hoverlong, hsurrogate⟩ : (0xE0 ≤ a.toNat ∧ a.toNat ≤ 0xEF)
          ∧ (0x80 ≤ b.toNat ∧ b.toNat ≤ 0xBF) ∧ (a.toNat = 0xE0 → 0xA0 ≤ b.toNat)
          ∧ (a.toNat = 0xED → b.toNat ≤ 0x9F) := by
        rw [UInt8.le_iff_toNat_le] at hlow hhigh
        cases hlead <;> simp only [UInt8.reduceToNat] at hlow hhigh <;> omega
      show utf8EncodeChar (Char.ofNat (((a.toNat - 0xE0) * 64 + (b.toNat - 0x80)) * 64
        + (c.toNat - 0x80))) = [a, b, c]
      generalize hn : ((a.toNat - 0xE0) * 64 + (b.toNat - 0x80)) * 64 + (c.toNat - 0x80) = n
      have hvalue := toNat_ofNat_char (show n < 0xD800 ∨ (0xDFFF < n ∧ n < 0x110000) by omega)
      rw [utf8EncodeChar_three (by omega) (by omega), hvalue, ofNat_eq_of_toNat (b := a) (by omega),
        ofNat_eq_of_toNat (b := b) (by omega), ofNat_eq_of_toNat (b := c) (by omega)]
  | [b, c, d], ⟨hlow, hhigh, hrest⟩ =>
      have hc := isContinuation_iff.mp (hrest c List.mem_cons_self)
      have hd := isContinuation_iff.mp (hrest d (List.mem_cons_of_mem _ List.mem_cons_self))
      obtain ⟨hfirst, hsecond, hoverlong, hbeyond⟩ : (0xF0 ≤ a.toNat ∧ a.toNat ≤ 0xF4)
          ∧ (0x80 ≤ b.toNat ∧ b.toNat ≤ 0xBF) ∧ (a.toNat = 0xF0 → 0x90 ≤ b.toNat)
          ∧ (a.toNat = 0xF4 → b.toNat ≤ 0x8F) := by
        rw [UInt8.le_iff_toNat_le] at hlow hhigh
        cases hlead <;> simp only [UInt8.reduceToNat] at hlow hhigh <;> omega
      show utf8EncodeChar (Char.ofNat ((((a.toNat - 0xF0) * 64 + (b.toNat - 0x80)) * 64
        + (c.toNat - 0x80)) * 64 + (d.toNat - 0x80))) = [a, b, c, d]
      generalize hn : (((a.toNat - 0xF0) * 64 + (b.toNat - 0x80)) * 64 + (c.toNat - 0x80)) * 64
        + (d.toNat - 0x80) = n
      have hvalue := toNat_ofNat_char (show n < 0xD800 ∨ (0xDFFF < n ∧ n < 0x110000) by omega)
      rw [utf8EncodeChar_four (by omega), hvalue, ofNat_eq_of_toNat (b := a) (by omega),
        ofNat_eq_of_toNat (b := b) (by omega), ofNat_eq_of_toNat (b := c) (by omega),
        ofNat_eq_of_toNat (b := d) (by omega)]
  | [], _ => cases hlead
  | _ :: _ :: _ :: _ :: _, _ => cases hlead

/-! ## §2. Beginnings of characters. -/

theorem not_ascii_of_lead {a : UInt8} {width : Nat} {low high : UInt8}
    (h : leadByte a = some (width, low, high)) : ¬a < 0x80 := by
  rw [leadByte_eq_some] at h
  rw [UInt8.lt_iff_toNat_lt]
  show ¬a.toNat < 0x80
  cases h <;> omega

theorem LeadRange.width_pos {n width : Nat} {low high : UInt8} (h : LeadRange n width low high) :
    2 ≤ width ∧ low ≤ high ∧ 0x80 ≤ low ∧ high ≤ 0xBF := by
  cases h <;> decide

theorem Trails.of_prefix {low high : UInt8} {part tail : List UInt8} (h : Trails low high tail)
    (hfront : part <+: tail) : Trails low high part := by
  obtain ⟨more, rfl⟩ := hfront
  cases part with
  | nil => trivial
  | cons b part => exact ⟨h.1, h.2.1, fun c hc => h.2.2 c (List.mem_append_left _ hc)⟩

/-- The bytes that a first byte announces can always be completed. -/
theorem Trails.extend {low high : UInt8} (hrange : low ≤ high) {part : List UInt8}
    (h : Trails low high part) (n : Nat) :
    ∃ more, Trails low high (part ++ more) ∧ more.length = n := by
  have hpad : ∀ c ∈ List.replicate n (0x80 : UInt8), isContinuation c = true := by
    intro c hc
    rw [List.eq_of_mem_replicate hc]
    decide
  cases part with
  | nil =>
      cases n with
      | zero => exact ⟨[], trivial, rfl⟩
      | succ n =>
          refine ⟨low :: List.replicate n 0x80, ⟨UInt8.le_refl low, hrange, fun c hc => ?_⟩, ?_⟩
          · exact hpad c (List.mem_cons_of_mem _ hc)
          · rw [List.length_cons, List.length_replicate]
  | cons b part =>
      refine ⟨List.replicate n 0x80, ⟨h.1, h.2.1, fun c hc => ?_⟩, List.length_replicate⟩
      rcases List.mem_append.mp hc with hc | hc
      · exact h.2.2 c hc
      · exact hpad c hc

/-- **A beginning of a character of more than one byte.** -/
theorem partial_cons_iff {a : UInt8} {part : List UInt8} (hascii : ¬a < 0x80) :
    Partial (a :: part) ↔ ∃ width low high, leadByte a = some (width, low, high)
      ∧ part.length + 1 ≤ width ∧ Trails low high part := by
  constructor
  · rintro ⟨c, hc⟩
    rcases utf8EncodeChar_shape c with ⟨hsmall, hone⟩ | ⟨a', tail, low, high, heq, hlead, _, htrails, _⟩
    · rw [hone] at hc
      obtain ⟨rfl, _⟩ := List.cons_prefix_cons.mp hc
      rw [UInt8.lt_iff_toNat_lt, toNat_ofNat_of_lt (by omega)] at hascii
      exact absurd hsmall hascii
    · rw [heq] at hc
      obtain ⟨rfl, hpart⟩ := List.cons_prefix_cons.mp hc
      exact ⟨_, low, high, hlead, Nat.succ_le_succ hpart.length_le, htrails.of_prefix hpart⟩
  · rintro ⟨width, low, high, hlead, hshort, htrails⟩
    obtain ⟨more, htrails, hmore⟩ := htrails.extend (leadByte_eq_some.mp hlead).width_pos.2.1
      (width - (part.length + 1))
    have hwidth : (part ++ more).length + 1 = width := by
      rw [List.length_append]
      omega
    rw [← hwidth] at hlead
    refine ⟨codePoint (leadBits ((part ++ more).length + 1) a) (part ++ more), ?_⟩
    rw [utf8EncodeChar_codePoint hlead htrails]
    exact List.cons_prefix_cons.mpr ⟨rfl, List.prefix_append part more⟩

/-! ## §3. The decoder. -/

theorem readChar_ascii {a : UInt8} (h : a < 0x80) (rest : List UInt8) :
    readChar (a :: rest) = some (Char.ofNat a.toNat, rest) := by
  unfold readChar
  dsimp only
  rw [if_pos h]

/-- A first byte and those that it announces are read. -/
theorem readChar_trails {a : UInt8} {tail : List UInt8} {low high : UInt8}
    (hlead : leadByte a = some (tail.length + 1, low, high)) (htrails : Trails low high tail)
    (rest : List UInt8) :
    readChar (a :: (tail ++ rest))
      = some (codePoint (leadBits (tail.length + 1) a) tail, rest) := by
  have hwidth := (leadByte_eq_some.mp hlead).width_pos.1
  have hrange : ∀ {b : UInt8}, low ≤ b → b ≤ high → ¬(b < low ∨ high < b) := by
    intro b hlow hhigh
    rw [not_or, UInt8.not_lt, UInt8.not_lt]
    exact ⟨hlow, hhigh⟩
  unfold readChar
  dsimp only
  rw [if_neg (not_ascii_of_lead hlead), hlead]
  match tail, htrails with
  | [b], ⟨hlow, hhigh, _⟩ =>
      dsimp only [List.cons_append, List.length_cons]
      rw [if_neg (hrange hlow hhigh), if_pos (show ([] : List UInt8).length + 1 + 1 = 2 from rfl)]
      rfl
  | [b, c], ⟨hlow, hhigh, hrest⟩ =>
      dsimp only [List.cons_append, List.length_cons]
      rw [if_neg (hrange hlow hhigh), if_neg (by decide),
        hrest c List.mem_cons_self, if_neg (by decide),
        if_pos (show ([] : List UInt8).length + 1 + 1 + 1 = 3 from rfl)]
      rfl
  | [b, c, d], ⟨hlow, hhigh, hrest⟩ =>
      dsimp only [List.cons_append, List.length_cons]
      rw [if_neg (hrange hlow hhigh), if_neg (by decide),
        hrest c List.mem_cons_self, if_neg (by decide), if_neg (by decide),
        hrest d (List.mem_cons_of_mem _ List.mem_cons_self), if_neg (by decide)]
      rfl
  | [], _ => exact absurd hwidth (by decide)
  | _ :: _ :: _ :: _ :: _, _ => cases leadByte_eq_some.mp hlead

theorem readChar_utf8EncodeChar (c : Char) (rest : List UInt8) :
    readChar (utf8EncodeChar c ++ rest) = some (c, rest) := by
  rcases utf8EncodeChar_shape c with ⟨hsmall, hone⟩ | ⟨a, tail, low, high, heq, hlead, _, htrails, hc⟩
  · have hbyte : (UInt8.ofNat c.toNat).toNat = c.toNat := toNat_ofNat_of_lt (by omega)
    have hascii : UInt8.ofNat c.toNat < 0x80 := by
      rw [UInt8.lt_iff_toNat_lt, hbyte]
      exact hsmall
    rw [hone, List.singleton_append, readChar_ascii hascii, hbyte, Char.ofNat_toNat]
  · rw [heq, List.cons_append, readChar_trails hlead htrails, hc]

/-- What is not there, or not in its range, ends the part that is replaced. -/
theorem maximalSubpart_of_lead {a : UInt8} {part rest : List UInt8} {width : Nat} {low high : UInt8}
    (hlead : leadByte a = some (width, low, high)) (hshort : part.length + 1 < width)
    (htrails : Trails low high part)
    (hnext : ∀ b more, rest = b :: more → ¬Trails low high (part ++ [b])) :
    MaximalSubpart (a :: part) (a :: part ++ rest) := by
  have hascii := not_ascii_of_lead hlead
  refine .of_next (List.cons_ne_nil a part)
    (.inr ((partial_cons_iff hascii).mpr ⟨width, low, high, hlead, by omega, htrails⟩))
    fun b more hmore hunfinished => ?_
  obtain ⟨width', low', high', hlead', _, htrails'⟩ := (partial_cons_iff hascii).mp hunfinished
  rw [hlead] at hlead'
  cases hlead'
  exact hnext b more hmore htrails'

theorem starts_of_trails {a : UInt8} {tail : List UInt8} {low high : UInt8} {width : Nat}
    (hlead : leadByte a = some (width, low, high)) (htrails : Trails low high tail)
    (hwidth : width = tail.length + 1) (rest : List UInt8) : Starts (a :: (tail ++ rest)) := by
  subst hwidth
  refine ⟨codePoint (leadBits (tail.length + 1) a) tail, ?_⟩
  rw [← List.cons_append, ← utf8EncodeChar_codePoint hlead htrails]
  exact List.prefix_append _ _

theorem trails_snoc {low high : UInt8} {part : List UInt8} (hne : part ≠ []) {c : UInt8} :
    Trails low high (part ++ [c]) ↔ Trails low high part ∧ isContinuation c = true := by
  obtain ⟨b, part, rfl⟩ := List.exists_cons_of_ne_nil hne
  constructor
  · rintro ⟨hlow, hhigh, hrest⟩
    exact ⟨⟨hlow, hhigh, fun x hx => hrest x (List.mem_append_left _ hx)⟩,
      hrest c (List.mem_append_right _ List.mem_cons_self)⟩
  · rintro ⟨⟨hlow, hhigh, hrest⟩, hc⟩
    refine ⟨hlow, hhigh, fun x hx => ?_⟩
    rcases List.mem_append.mp hx with hx | hx
    · exact hrest x hx
    · rw [List.mem_singleton.mp hx]
      exact hc

/-- A continuation that is none ends the part. -/
theorem maximalSubpart_of_not_continuation {a b c : UInt8} {more rest : List UInt8} {width : Nat}
    {low high : UInt8} (hlead : leadByte a = some (width, low, high))
    (hshort : (b :: more).length + 1 < width) (htrails : Trails low high (b :: more))
    (hc : (!isContinuation c) = true) :
    MaximalSubpart (a :: b :: more) (a :: b :: more ++ c :: rest) := by
  refine maximalSubpart_of_lead hlead hshort htrails fun x xs hx hnext => ?_
  obtain ⟨rfl, _⟩ := List.cons_eq_cons.mp hx
  rw [((trails_snoc (List.cons_ne_nil b more)).mp hnext).2] at hc
  cases hc

/-- What is replaced where no character comes first. -/
theorem readChar_replaces {s rest : List UInt8} {ch : Char} (h : readChar s = some (ch, rest))
    (hnone : ¬Starts s) :
    ch = replacement ∧ ∃ part, s = part ++ rest ∧ MaximalSubpart part s := by
  cases s with
  | nil => cases h
  | cons a tail =>
      by_cases hascii : a < 0x80
      · -- a byte below 128 is a character
        refine absurd ⟨Char.ofNat a.toNat, ?_⟩ hnone
        have hsmall : a.toNat < 0x80 := hascii
        have hvalue := toNat_ofNat_char (show a.toNat < 0xD800 ∨ _ from .inl (by omega))
        rw [utf8EncodeChar_one (by omega), hvalue, UInt8.ofNat_toNat]
        exact List.prefix_append [a] tail
      · unfold readChar at h
        dsimp only at h
        rw [if_neg hascii] at h
        cases hlead : leadByte a with
        | none =>
            rw [hlead] at h
            cases h
            refine ⟨rfl, [a], rfl, .of_next (List.cons_ne_nil a []) (.inl rfl) fun b more _ hnext => ?_⟩
            obtain ⟨_, _, _, hsome, _⟩ := (partial_cons_iff hascii).mp hnext
            rw [hlead] at hsome
            cases hsome
        | some range =>
            obtain ⟨width, low, high⟩ := range
            have hwidth := (leadByte_eq_some.mp hlead).width_pos.1
            rw [hlead] at h
            cases tail with
            | nil => cases h
            | cons b tail =>
                dsimp only at h
                by_cases hrange : b < low ∨ high < b
                · rw [if_pos hrange] at h
                  cases h
                  refine ⟨rfl, [a], rfl, maximalSubpart_of_lead hlead hwidth trivial ?_⟩
                  intro x xs hx hnext
                  obtain ⟨rfl, _⟩ := List.cons_eq_cons.mp hx
                  rcases hrange with hlow | hhigh
                  · exact absurd hnext.1 (UInt8.not_le.mpr hlow)
                  · exact absurd hnext.2.1 (UInt8.not_le.mpr hhigh)
                · rw [if_neg hrange] at h
                  have htrails : Trails low high [b] := by
                    rw [not_or, UInt8.not_lt, UInt8.not_lt] at hrange
                    exact ⟨hrange.1, hrange.2, nofun⟩
                  by_cases htwo : width = 2
                  · exact absurd (starts_of_trails hlead htrails htwo tail) hnone
                  · rw [if_neg htwo] at h
                    cases tail with
                    | nil => cases h
                    | cons c tail =>
                        dsimp only at h
                        by_cases hc : (!isContinuation c) = true
                        · rw [if_pos hc] at h
                          cases h
                          exact ⟨rfl, [a, b], rfl, maximalSubpart_of_not_continuation hlead
                            (show 2 < width by omega) htrails hc⟩
                        · rw [if_neg hc] at h
                          have htrails : Trails low high [b, c] :=
                            (trails_snoc (List.cons_ne_nil b [])).mpr ⟨htrails, by simpa using hc⟩
                          by_cases hthree : width = 3
                          · exact absurd (starts_of_trails hlead htrails hthree tail) hnone
                          · rw [if_neg hthree] at h
                            cases tail with
                            | nil => cases h
                            | cons d tail =>
                                dsimp only at h
                                by_cases hd : (!isContinuation d) = true
                                · rw [if_pos hd] at h
                                  cases h
                                  exact ⟨rfl, [a, b, c], rfl, maximalSubpart_of_not_continuation hlead
                                    (show 3 < width by omega) htrails hd⟩
                                · have hfour : width = 4 := by
                                    rcases leadByte_eq_some.mp hlead <;> omega
                                  have htrails : Trails low high [b, c, d] :=
                                    (trails_snoc (List.cons_ne_nil b [c])).mpr
                                      ⟨htrails, by simpa using hd⟩
                                  exact absurd (starts_of_trails hlead htrails hfour tail) hnone

/-- What waits for more bytes is the beginning of a character. -/
theorem readChar_waits {s : List UInt8} (h : readChar s = none) : s = [] ∨ Partial s := by
  cases s with
  | nil => exact .inl rfl
  | cons a tail =>
      refine .inr ?_
      unfold readChar at h
      dsimp only at h
      by_cases hascii : a < 0x80
      · rw [if_pos hascii] at h
        cases h
      · rw [if_neg hascii] at h
        refine (partial_cons_iff hascii).mpr ?_
        cases hlead : leadByte a with
        | none =>
            rw [hlead] at h
            cases h
        | some range =>
            obtain ⟨width, low, high⟩ := range
            have hwidth := (leadByte_eq_some.mp hlead).width_pos.1
            rw [hlead] at h
            refine ⟨width, low, high, rfl, ?_⟩
            -- the bytes that are there are those that were announced
            cases tail with
            | nil => exact ⟨by rw [List.length_nil]; omega, trivial⟩
            | cons b tail =>
                dsimp only at h
                split at h
                · cases h
                · rename_i hrange
                  rw [not_or, UInt8.not_lt, UInt8.not_lt] at hrange
                  have htrails : Trails low high [b] := ⟨hrange.1, hrange.2, nofun⟩
                  split at h
                  · cases h
                  · cases tail with
                    | nil => exact ⟨hwidth, htrails⟩
                    | cons c tail =>
                        dsimp only at h
                        split at h
                        · cases h
                        · rename_i hc
                          have htrails : Trails low high [b, c] :=
                            (trails_snoc (List.cons_ne_nil b [])).mpr ⟨htrails, by simpa using hc⟩
                          split at h
                          · cases h
                          · cases tail with
                            | nil => exact ⟨show 3 ≤ width by omega, htrails⟩
                            | cons d tail =>
                                dsimp only at h
                                split at h <;> cases h

/-- **The decoder takes characters, and maximal subparts where there is none.** -/
theorem readChar_decodes : Decodes readChar where
  reads := readChar_utf8EncodeChar
  replaces := readChar_replaces
  waits := readChar_waits

/-! ## §4. The loop of `drain_decodable`. -/

/-- Where `str::from_utf8` stops, and how many bytes it rejects; none where more may follow. -/
structure Utf8Error where
  validUpTo : Nat
  errorLen : Option Nat
  deriving Repr, DecidableEq

/-- The characters that come first, and what follows them. -/
def validRun : Nat → List UInt8 → Text × List UInt8
  | 0, bytes => ([], bytes)
  | fuel + 1, bytes =>
      match readChar bytes with
      | none => ([], bytes)
      | some (c, rest) =>
          if utf8EncodeChar c ++ rest = bytes then
            (c :: (validRun fuel rest).1, (validRun fuel rest).2)
          else ([], bytes)

/-- `str::from_utf8`. -/
def fromUtf8 (bytes : List UInt8) : Except Utf8Error Text :=
  let (text, rest) := validRun bytes.length bytes
  if rest = [] then .ok text
  else
    .error
      { validUpTo := bytes.length - rest.length
        errorLen := (readChar rest).map fun turn => rest.length - turn.2.length }

/-- The loop of `drain_decodable`: the text, and the bytes that stay. -/
def drainDecodable (finish : Bool) : Nat → List UInt8 → Text × List UInt8
  | 0, pending => ([], pending)
  | turns + 1, pending =>
      match fromUtf8 pending with
      | .ok value => (value, [])
      | .error error =>
          let text := (fromUtf8 (pending.take error.validUpTo)).toOption.getD []
          let pending := pending.drop error.validUpTo
          match error.errorLen with
          | some length =>
              let rest := drainDecodable finish turns (pending.drop (min length pending.length))
              (text ++ replacementCharacter :: rest.1, rest.2)
          | none =>
              if finish then (text ++ [replacementCharacter], []) else (text, pending)

/-- The characters up to the first place where none begins. -/
theorem validRun_spec {fuel : Nat} {bytes : List UInt8} (hfuel : bytes.length ≤ fuel) :
    bytes = (validRun fuel bytes).1.flatMap utf8EncodeChar ++ (validRun fuel bytes).2
      ∧ ¬Starts (validRun fuel bytes).2
      ∧ Scan.readAll readChar bytes
          = ((validRun fuel bytes).1 ++ (Scan.readAll readChar (validRun fuel bytes).2).1,
              (Scan.readAll readChar (validRun fuel bytes).2).2) := by
  induction fuel generalizing bytes with
  | zero =>
      have hempty : bytes = [] := List.eq_nil_of_length_eq_zero (by omega)
      subst hempty
      exact ⟨rfl, not_starts_nil, rfl⟩
  | succ fuel ih =>
      unfold validRun
      cases hread : readChar bytes with
      | none => exact ⟨rfl, readChar_decodes.not_starts_of_none hread, rfl⟩
      | some turn =>
          obtain ⟨c, rest⟩ := turn
          dsimp only
          by_cases hvalid : utf8EncodeChar c ++ rest = bytes
          · rw [if_pos hvalid]
            have hshorter := readChar_decodes.advances hread
            obtain ⟨hsplit, hnone, hall⟩ := ih (show rest.length ≤ fuel by omega)
            refine ⟨?_, hnone, ?_⟩
            · dsimp only
              rw [List.flatMap_cons, List.append_assoc, ← hsplit, hvalid]
            · rw [Scan.readAll_of_some readChar_incremental hread, hall]
              rfl
          · rw [if_neg hvalid]
            refine ⟨rfl, fun hstarts => ?_, rfl⟩
            obtain ⟨c', rest', hsplit, hsome⟩ := readChar_decodes.reads_of_starts hstarts
            rw [hread] at hsome
            obtain ⟨rfl, rfl⟩ := Prod.mk.inj (Option.some.inj hsome)
            exact hvalid hsplit.symm

/-- Valid text is decoded as it is. -/
theorem fromUtf8_flatMap (text : Text) :
    fromUtf8 (text.flatMap utf8EncodeChar) = .ok text := by
  have hrun : ∀ fuel, (text.flatMap utf8EncodeChar).length ≤ fuel →
      validRun fuel (text.flatMap utf8EncodeChar) = (text, []) := by
    intro fuel
    induction text generalizing fuel with
    | nil => cases fuel <;> exact fun _ => rfl
    | cons c text ih =>
        intro hfuel
        have hpos := List.length_pos_of_ne_nil (utf8EncodeChar_ne_nil c)
        rw [List.flatMap_cons, List.length_append] at hfuel
        cases fuel with
        | zero => omega
        | succ fuel =>
            unfold validRun
            rw [List.flatMap_cons, readChar_utf8EncodeChar]
            dsimp only
            rw [if_pos rfl, ih fuel (by omega)]
  unfold fromUtf8
  rw [hrun _ (Nat.le_refl _)]
  rfl

/-- **The loop reads the characters one after the other.** -/
theorem drainDecodable_eq (finish : Bool) {turns : Nat} {pending : List UInt8}
    (hturns : pending.length < turns) :
    drainDecodable finish turns pending
      = if finish then (Decodes.finished readChar pending, []) else Scan.readAll readChar pending := by
  induction turns generalizing pending with
  | zero => omega
  | succ turns ih =>
      obtain ⟨hsplit, hnone, hall⟩ := validRun_spec (Nat.le_refl pending.length)
      unfold drainDecodable fromUtf8
      generalize validRun pending.length pending = run at hsplit hnone hall ⊢
      obtain ⟨text, rest⟩ := run
      dsimp only at hsplit hnone hall ⊢
      have hfinished : Decodes.finished readChar pending
          = text ++ Decodes.finished readChar rest := by
        unfold Decodes.finished
        rw [hall, List.append_assoc]
      by_cases hdone : rest = []
      · subst hdone
        rw [if_pos rfl, hfinished, readChar_decodes.finished_nil, hall]
        have hnothing : Scan.readAll readChar [] = ([], []) := rfl
        rw [hnothing, List.append_nil]
        cases finish <;> rfl
      · rw [if_neg hdone]
        dsimp only
        have hvalid : pending.length - rest.length = (text.flatMap utf8EncodeChar).length := by
          rw [hsplit, List.length_append, Nat.add_sub_cancel]
        have htake : pending.take (pending.length - rest.length) = text.flatMap utf8EncodeChar := by
          rw [hvalid, hsplit, List.take_left]
        have hdrop : pending.drop (pending.length - rest.length) = rest := by
          rw [hvalid, hsplit, List.drop_left]
        have htext : (fromUtf8 (text.flatMap utf8EncodeChar)).toOption.getD [] = text := by
          rw [fromUtf8_flatMap]
          rfl
        rw [htake, hdrop]
        unfold fromUtf8 at htext
        dsimp only at htext
        rw [htext]
        cases hread : readChar rest with
        | none =>
            -- the rest may still become a character
            have hempty : rest.isEmpty = false := by
              cases rest with
              | nil => exact absurd rfl hdone
              | cons b rest => rfl
            rw [hfinished, hall, Decodes.finished_of_none hread, Scan.readAll_of_none hread, hempty,
              List.append_nil]
            rfl
        | some turn =>
            obtain ⟨ch, more⟩ := turn
            obtain ⟨hch, part, hpart, hmax⟩ := readChar_decodes.replaces hread hnone
            have hshorter := readChar_decodes.advances hread
            have hlength : rest.length ≤ pending.length := by
              rw [hsplit, List.length_append]
              omega
            have hmore : rest.drop (min (rest.length - more.length) rest.length) = more := by
              have hcut : min (rest.length - more.length) rest.length = part.length := by
                rw [hpart, List.length_append]
                omega
              rw [hcut]
              conv => lhs; rw [hpart, List.drop_left]
            dsimp only [Option.map_some]
            rw [hmore, ih (show more.length < turns by omega), hfinished, hall,
              Decodes.finished_of_some readChar_incremental hread,
              Scan.readAll_of_some readChar_incremental hread, hch]
            cases finish <;> rfl

/-! ## §5. Streams. -/

namespace Utf8Chunker

/-- **`push` and `finish` are the loop of the source.** -/
theorem eq_drainDecodable (chunker : Utf8Chunker) (bytes : List UInt8) :
    chunker.push bytes
        = (let drained := drainDecodable false ((chunker.pending ++ bytes).length + 1)
            (chunker.pending ++ bytes)
          (splitUtf8 drained.1 chunker.maxBytes, { chunker with pending := drained.2 }))
      ∧ chunker.finish
        = splitUtf8 (drainDecodable true (chunker.pending.length + 1) chunker.pending).1
          chunker.maxBytes := by
  constructor
  · dsimp only
    rw [drainDecodable_eq false (Nat.lt_succ_self _)]
    rfl
  · rw [drainDecodable_eq true (Nat.lt_succ_self _)]
    rfl

/-- The chunks of one packet after the other, and the decoder after the last. -/
def pushAll (chunker : Utf8Chunker) : List (List UInt8) → List Text × Utf8Chunker
  | [] => ([], chunker)
  | bytes :: packets =>
      let (chunks, next) := chunker.push bytes
      let rest := pushAll next packets
      (chunks ++ rest.1, rest.2)

end Utf8Chunker

theorem utf8Len_singleton_le (c : Char) : utf8Len [c] ≤ 4 := by
  rw [String.utf8Len_cons, String.utf8Len_nil, Nat.zero_add]
  exact c.utf8Size_le_four

/-- No chunk is empty or longer than the limit. -/
theorem splitFrom_bounded {maxBytes : Nat} (hmax : 4 ≤ maxBytes) {current value chunk : Text}
    (hcurrent : utf8Len current ≤ maxBytes) (h : chunk ∈ splitFrom maxBytes current value) :
    chunk ≠ [] ∧ utf8Len chunk ≤ maxBytes := by
  induction value generalizing current with
  | nil =>
      unfold splitFrom at h
      split at h
      · cases h
      · rename_i hne
        rw [List.mem_singleton.mp h]
        exact ⟨fun hnil => hne (List.isEmpty_iff.mpr hnil), hcurrent⟩
  | cons c rest ih =>
      have hone := utf8Len_singleton_le c
      unfold splitFrom at h
      split at h
      · rename_i hover
        rcases List.mem_cons.mp h with rfl | h
        · -- a single character is never too long
          refine ⟨fun hnil => ?_, hcurrent⟩
          rw [hnil, List.nil_append] at hover
          omega
        · exact ih (by omega) h
      · rename_i hfits
        exact ih (by omega) h

namespace Utf8Chunker

variable {chunker : Utf8Chunker}

theorem mem_push_bounded {bytes : List UInt8} {chunk : Text} (h : chunk ∈ (chunker.push bytes).1) :
    chunk ≠ [] ∧ utf8Len chunk ≤ chunker.maxBytes :=
  splitFrom_bounded chunker.bounded.1 (Nat.zero_le _) h

theorem mem_finish_bounded {chunk : Text} (h : chunk ∈ chunker.finish) :
    chunk ≠ [] ∧ utf8Len chunk ≤ chunker.maxBytes :=
  splitFrom_bounded chunker.bounded.1 (Nat.zero_le _) h

theorem push_pending (bytes : List UInt8) :
    (chunker.push bytes).2.pending = (Scan.readAll readChar (chunker.pending ++ bytes)).2 := rfl

/-- What is carried over is the beginning of a character. -/
theorem push_pending_le (bytes : List UInt8) : (chunker.push bytes).2.pending.length ≤ 3 := by
  rw [push_pending]
  exact readChar_decodes.left_le (Scan.read_readAll readChar_incremental _)

theorem mem_pushAll_bounded {packets : List (List UInt8)} {chunk : Text}
    (h : chunk ∈ (chunker.pushAll packets).1 ++ (chunker.pushAll packets).2.finish) :
    chunk ≠ [] ∧ utf8Len chunk ≤ chunker.maxBytes := by
  induction packets generalizing chunker with
  | nil => exact mem_finish_bounded h
  | cons bytes packets ih =>
      unfold pushAll at h
      dsimp only at h
      rw [List.append_assoc] at h
      rcases List.mem_append.mp h with h | h
      · exact mem_push_bounded h
      · exact @ih (chunker.push bytes).2 h

theorem pushAll_pending_le {packets : List (List UInt8)} (hpending : chunker.pending.length ≤ 3) :
    (chunker.pushAll packets).2.pending.length ≤ 3 := by
  induction packets generalizing chunker with
  | nil => exact hpending
  | cons bytes packets ih => exact @ih (chunker.push bytes).2 (push_pending_le bytes)

/-- The chunks are what is read of the bytes that were left and those of the packets. -/
theorem pushAll_flatten (chunker : Utf8Chunker) (packets : List (List UInt8)) :
    ((chunker.pushAll packets).1 ++ (chunker.pushAll packets).2.finish).flatten
      = Decodes.finished readChar (chunker.pending ++ packets.flatten) := by
  induction packets generalizing chunker with
  | nil =>
      show (chunker.finish).flatten = _
      rw [List.flatten_nil, List.append_nil]
      exact splitUtf8_flatten _ _
  | cons bytes packets ih =>
      have hread := Scan.readAll_append readChar_incremental packets.flatten (chunker.pending ++ bytes)
      unfold pushAll
      dsimp only
      rw [List.append_assoc, List.flatten_append, ih, List.flatten_cons, ← List.append_assoc]
      show (splitUtf8 (Scan.readAll readChar (chunker.pending ++ bytes)).1 chunker.maxBytes).flatten
        ++ Decodes.finished readChar ((Scan.readAll readChar (chunker.pending ++ bytes)).2
          ++ packets.flatten) = _
      unfold Decodes.finished
      rw [splitUtf8_flatten, hread, List.append_assoc]

/-- **However a stream is cut, its chunks are its lossy decoding**, none is empty or too long,
and no more than three bytes are ever carried over. -/
theorem chunks_lossless {maxBytes : Nat} (hmin : 4 ≤ maxBytes) (hmax : maxBytes ≤ 32768) :
    ∃ chunker, new maxBytes = .ok chunker ∧ ∀ packets : List (List UInt8),
      let chunks := (chunker.pushAll packets).1 ++ (chunker.pushAll packets).2.finish
      (∀ text, Lossy packets.flatten text ↔ text = chunks.flatten)
        ∧ (∀ chunk ∈ chunks, chunk ≠ [] ∧ utf8Len chunk ≤ maxBytes)
        ∧ ∀ first, first <+: packets → (chunker.pushAll first).2.pending.length ≤ 3 := by
  refine ⟨_, dif_pos ⟨hmin, hmax⟩, fun packets => ?_⟩
  refine ⟨fun text => ?_, fun chunk hchunk => mem_pushAll_bounded hchunk,
    fun first _ => pushAll_pending_le (Nat.zero_le 3)⟩
  rw [pushAll_flatten, List.nil_append]
  exact readChar_decodes.lossy_iff readChar_incremental

/-- A character over two packets, and a byte that begins none. -/
theorem chunks_lossless_cutCharacter :
    ∃ chunker, new 4 = .ok chunker
      ∧ (chunker.pushAll [[0x61, 0xE4], [0xBD, 0xA0, 0xFF]]).1 = ["a".toList, "你".toList, [replacement]]
      ∧ Lossy [0x61, 0xE4, 0xBD, 0xA0, 0xFF] ['a', '你', replacement] := by
  obtain ⟨chunker, hnew, hall⟩ := @chunks_lossless 4 (by decide) (by decide)
  have hchunker : new 4 = .ok ⟨4, [], by decide⟩ := rfl
  rw [hchunker] at hnew
  cases hnew
  refine ⟨_, rfl, by decide, ?_⟩
  exact ((hall [[0x61, 0xE4], [0xBD, 0xA0, 0xFF]]).1 _).mpr (by decide)

end Utf8Chunker

end QingzhouSSH.Domain
