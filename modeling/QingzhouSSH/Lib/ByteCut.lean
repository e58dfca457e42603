/-
  QingzhouSSH.Lib.ByteCut — texts cut at byte positions.

  A position counts bytes of UTF-8, and a cut is defined only at the boundary of a
  character, as slices of a Rust string are.

  Main results:
    * `sliceFrom_append`, `sliceTo_append`, `slice_append`, `replaceRange_append` — cuts at
      the end of a piece are defined.
-/
import Mathlib.Data.List.Basic
import Mathlib.Data.String.Basic
import QingzhouSSH.Lib.Text

namespace QingzhouSSH.Lib.ByteCut

open String (utf8Len)

/-! ## §1. Slices. -/

/-- `&s[n..]`; none within a character or behind the end. -/
def sliceFrom : List Char → Nat → Option (List Char)
  | s, 0 => some s
  | [], _ + 1 => none
  | c :: s, n + 1 => if c.utf8Size ≤ n + 1 then sliceFrom s (n + 1 - c.utf8Size) else none

/-- `&s[..n]`. -/
def sliceTo : List Char → Nat → Option (List Char)
  | _, 0 => some []
  | [], _ + 1 => none
  | c :: s, n + 1 =>
      if c.utf8Size ≤ n + 1 then (sliceTo s (n + 1 - c.utf8Size)).map (c :: ·) else none

/-- `&s[a..b]`. -/
def slice (s : List Char) (a b : Nat) : Option (List Char) :=
  if a ≤ b then (sliceTo s b).bind fun front => sliceFrom front a else none

/-- `replace_range(a..b, new)`. -/
def replaceRange (s : List Char) (a b : Nat) (new : List Char) : Option (List Char) :=
  if a ≤ b then (sliceTo s a).bind fun front => (sliceFrom s b).map fun back => front ++ new ++ back
  else none

/-- The position of the first occurrence of a text. -/
def find (pat s : List Char) : Option Nat :=
  (Text.splitFirst pat s).map fun found => utf8Len found.1

/-- The position of the first character with a property. -/
def findChar (p : Char → Bool) : List Char → Option Nat
  | [] => none
  | c :: s => if p c then some 0 else (findChar p s).map (c.utf8Size + ·)

/-! ## §2. Cuts at the end of a piece. -/

variable {a b c s : List Char} {n : Nat}

theorem sliceFrom_append (a b : List Char) : sliceFrom (a ++ b) (utf8Len a) = some b := by
  induction a with
  | nil =>
      show sliceFrom b 0 = some b
      cases b <;> rfl
  | cons c a ih =>
      have hpos := c.utf8Size_pos
      rw [String.utf8Len_cons, List.cons_append]
      obtain ⟨n, hn⟩ := Nat.exists_eq_succ_of_ne_zero (show utf8Len a + c.utf8Size ≠ 0 by omega)
      rw [hn]
      unfold sliceFrom
      rw [if_pos (by omega), show n + 1 - c.utf8Size = utf8Len a by omega]
      exact ih

theorem sliceTo_append (a b : List Char) : sliceTo (a ++ b) (utf8Len a) = some a := by
  induction a with
  | nil =>
      show sliceTo b 0 = some []
      cases b <;> rfl
  | cons c a ih =>
      have hpos := c.utf8Size_pos
      rw [String.utf8Len_cons, List.cons_append]
      obtain ⟨n, hn⟩ := Nat.exists_eq_succ_of_ne_zero (show utf8Len a + c.utf8Size ≠ 0 by omega)
      rw [hn]
      unfold sliceTo
      rw [if_pos (by omega), show n + 1 - c.utf8Size = utf8Len a by omega, ih]
      rfl

theorem sliceFrom_of_eq (hs : s = a ++ b) (hn : n = utf8Len a) : sliceFrom s n = some b := by
  rw [hs, hn]
  exact sliceFrom_append a b

theorem sliceTo_of_eq (hs : s = a ++ b) (hn : n = utf8Len a) : sliceTo s n = some a := by
  rw [hs, hn]
  exact sliceTo_append a b

theorem slice_of_eq {m : Nat} (hs : s = a ++ b ++ c) (hn : n = utf8Len a)
    (hm : m = utf8Len a + utf8Len b) : slice s n m = some b := by
  have hend : m = utf8Len (a ++ b) := by rw [hm, String.utf8Len_append]
  unfold slice
  rw [if_pos (by omega), sliceTo_of_eq hs hend, Option.bind_some]
  exact sliceFrom_of_eq rfl hn

theorem replaceRange_of_eq {m : Nat} (hs : s = a ++ b ++ c) (hn : n = utf8Len a)
    (hm : m = utf8Len a + utf8Len b) (new : List Char) :
    replaceRange s n m new = some (a ++ new ++ c) := by
  have hend : m = utf8Len (a ++ b) := by rw [hm, String.utf8Len_append]
  have hsplit : s = a ++ (b ++ c) := by rw [hs, List.append_assoc]
  unfold replaceRange
  rw [if_pos (by omega), sliceTo_of_eq hsplit hn, sliceFrom_of_eq hs hend]
  rfl

/-- The first character with a property ends the ones without it. -/
theorem findChar_some {p q : Char → Bool} (hq : ∀ c, q c = !p c) (h : s.dropWhile q ≠ []) :
    findChar p s = some (utf8Len (s.takeWhile q)) := by
  induction s with
  | nil => exact absurd rfl h
  | cons c s ih =>
      have hc := hq c
      unfold findChar
      cases hp : p c with
      | true =>
          rw [hp] at hc
          rw [List.takeWhile_cons_of_neg (by rw [hc]; exact Bool.false_ne_true)]
          rfl
      | false =>
          rw [hp] at hc
          rw [List.dropWhile_cons_of_pos hc] at h
          rw [List.takeWhile_cons_of_pos hc, ih h, String.utf8Len_cons, Nat.add_comm]
          rfl

theorem findChar_none {p q : Char → Bool} (hq : ∀ c, q c = !p c) (h : s.dropWhile q = []) :
    findChar p s = none := by
  induction s with
  | nil => rfl
  | cons c s ih =>
      have hc := hq c
      unfold findChar
      cases hp : p c with
      | true =>
          rw [hp] at hc
          rw [List.dropWhile_cons_of_neg (by rw [hc]; exact Bool.false_ne_true)] at h
          cases h
      | false =>
          rw [hp] at hc
          rw [List.dropWhile_cons_of_pos hc] at h
          rw [ih h]
          rfl

end QingzhouSSH.Lib.ByteCut
