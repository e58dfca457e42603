/-
  QingzhouSSH.Lib.Utf16 — texts as sequences of 16-bit units.

  A character beyond the first plane is a pair of surrogates, ten bits in each.

  Main result: `decode_encode` — the units of a text are read back.
-/
import Mathlib.Data.List.Basic

namespace QingzhouSSH.Lib.Utf16

/-- The units of a character. -/
def units (c : Char) : List Nat :=
  if c.toNat < 0x10000 then [c.toNat]
  else [0xD800 + (c.toNat - 0x10000) / 0x400, 0xDC00 + (c.toNat - 0x10000) % 0x400]

def encode (s : List Char) : List Nat := s.flatMap units

/-- A unit that is no surrogate is a character, and so are a high and a low one. -/
def decode : List Nat → Option (List Char)
  | [] => some []
  | [u] => if u < 0xD800 ∨ 0xE000 ≤ u then some [Char.ofNat u] else none
  | u :: v :: rest =>
      if u < 0xD800 ∨ 0xE000 ≤ u then (decode (v :: rest)).map (Char.ofNat u :: ·)
      else if u < 0xDC00 ∧ 0xDC00 ≤ v ∧ v < 0xE000 then
        (decode rest).map (Char.ofNat (0x10000 + (u - 0xD800) * 0x400 + (v - 0xDC00)) :: ·)
      else none

/-- A character is no surrogate, and there are seventeen planes. -/
theorem toNat_valid (c : Char) : c.toNat < 0xD800 ∨ 0xDFFF < c.toNat ∧ c.toNat < 0x110000 := by
  have hvalid := c.valid
  simp only [UInt32.isValidChar, Nat.isValidChar] at hvalid
  exact hvalid

theorem units_lt (c : Char) : ∀ u ∈ units c, u < 0x10000 := by
  have hvalid := toNat_valid c
  intro u hu
  unfold units at hu
  split at hu
  · simp only [List.mem_singleton] at hu
    omega
  · simp only [List.mem_cons, List.not_mem_nil, or_false] at hu
    omega

/-- A plain unit in front. -/
theorem decode_plain {u : Nat} (h : u < 0xD800 ∨ 0xE000 ≤ u) (rest : List Nat) :
    decode (u :: rest) = (decode rest).map (Char.ofNat u :: ·) := by
  cases rest with
  | nil =>
      unfold decode
      rw [if_pos h]
      rfl
  | cons v rest =>
      rw [decode, if_pos h]

theorem decode_units (c : Char) (rest : List Nat) :
    decode (units c ++ rest) = (decode rest).map (c :: ·) := by
  have hvalid := toNat_valid c
  unfold units
  by_cases hplane : c.toNat < 0x10000
  · rw [if_pos hplane, List.singleton_append, decode_plain (by omega), Char.ofNat_toNat]
  · rw [if_neg hplane]
    show decode (_ :: _ :: rest) = _
    rw [decode, if_neg (by omega), if_pos (by omega)]
    have hback : 0x10000 + (0xD800 + (c.toNat - 0x10000) / 0x400 - 0xD800) * 0x400
        + (0xDC00 + (c.toNat - 0x10000) % 0x400 - 0xDC00) = c.toNat := by omega
    rw [hback, Char.ofNat_toNat]

/-- **The units of a text are read back.** -/
theorem decode_encode (s : List Char) : decode (encode s) = some s := by
  induction s with
  | nil => rfl
  | cons c s ih =>
      have hcons : encode (c :: s) = units c ++ encode s := rfl
      rw [hcons, decode_units, ih]
      rfl

end QingzhouSSH.Lib.Utf16
