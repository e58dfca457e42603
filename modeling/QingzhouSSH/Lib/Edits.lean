/-
  QingzhouSSH.Lib.Edits — scripts of what is kept of a text and what is masked.

  A script counts the symbols that come next and says whether they are kept or replaced
  by a mask.  It does not look at the symbols, so it applies as well to symbols that carry
  the place they come from.

  Main results:
    * `map_edited` — a script does the same to symbols and to what they carry;
    * `mem_follow` — what is kept comes from the text;
    * `edited_replaceEdits` — the replacement of a pattern as a script.
-/
import Mathlib.Data.List.Infix
import QingzhouSSH.Lib.Text

namespace QingzhouSSH.Lib.Text

variable {α β : Type*}

/-! ## §1. Scripts. -/

inductive Edit where
  | keep (n : Nat)
  | mask (n : Nat)
  deriving Repr, DecidableEq

/-- Follow a script; what it does not come to is kept. -/
def edited (mask : List α) : List Edit → List α → List α
  | [], s => s
  | .keep n :: script, s => s.take n ++ edited mask script (s.drop n)
  | .mask n :: script, s => mask ++ edited mask script (s.drop n)

theorem map_edited (f : α → β) (mask : List α) (script : List Edit) (s : List α) :
    (edited mask script s).map f = edited (mask.map f) script (s.map f) := by
  induction script generalizing s with
  | nil => rfl
  | cons edit script ih =>
      cases edit with
      | keep n =>
          show (s.take n ++ edited mask script (s.drop n)).map f = _
          rw [List.map_append, ih, List.map_take, List.map_drop]
          rfl
      | mask n =>
          show (mask ++ edited mask script (s.drop n)).map f = _
          rw [List.map_append, ih, List.map_drop]
          rfl

theorem mem_edited {mask : List α} {script : List Edit} {s : List α} {x : α}
    (h : x ∈ edited mask script s) : x ∈ mask ∨ x ∈ s := by
  induction script generalizing s with
  | nil => exact .inr h
  | cons edit script ih =>
      cases edit with
      | keep n =>
          obtain hfirst | hrest := List.mem_append.mp h
          · exact .inr (List.mem_of_mem_take hfirst)
          · exact (ih hrest).imp id List.mem_of_mem_drop
      | mask n =>
          obtain hfirst | hrest := List.mem_append.mp h
          · exact .inl hfirst
          · exact (ih hrest).imp id List.mem_of_mem_drop

theorem edited_keep (mask : List α) (script : List Edit) (a s : List α) :
    edited mask (.keep a.length :: script) (a ++ s) = a ++ edited mask script s := by
  show (a ++ s).take a.length ++ edited mask script ((a ++ s).drop a.length) = _
  rw [List.take_left, List.drop_left]

theorem edited_mask (mask : List α) (script : List Edit) (a s : List α) :
    edited mask (.mask a.length :: script) (a ++ s) = mask ++ edited mask script s := by
  show mask ++ edited mask script ((a ++ s).drop a.length) = _
  rw [List.drop_left]

/-- The last piece is masked. -/
theorem edited_mask_all (mask s : List α) : edited mask [.mask s.length] s = mask := by
  show mask ++ s.drop s.length = mask
  rw [List.drop_length, List.append_nil]

/-! ## §2. Symbols with their places. -/

/-- Every symbol with its place; the first one has the place `k`. -/
def placed (k : Nat) : List α → List (α × Option Nat)
  | [] => []
  | c :: s => (c, some k) :: placed (k + 1) s

@[simp] theorem map_fst_placed (k : Nat) (s : List α) : (placed k s).map Prod.fst = s := by
  induction s generalizing k with
  | nil => rfl
  | cons c s ih => exact congrArg (c :: ·) (ih (k + 1))

theorem placed_take (k n : Nat) (s : List α) : (placed k s).take n = placed k (s.take n) := by
  induction s generalizing k n with
  | nil => cases n <;> rfl
  | cons c s ih =>
      cases n with
      | zero => rfl
      | succ n => exact congrArg ((c, some k) :: ·) (ih (k + 1) n)

theorem placed_drop (k n : Nat) (s : List α) : (placed k s).drop n = placed (k + n) (s.drop n) := by
  induction s generalizing k n with
  | nil => cases n <;> rfl
  | cons c s ih =>
      cases n with
      | zero => rfl
      | succ n =>
          show (placed (k + 1) s).drop n = placed (k + (n + 1)) (s.drop n)
          rw [ih, Nat.add_assoc, Nat.add_comm 1 n]

theorem mem_placed {k p : Nat} {s : List α} {c : α} (h : (c, some p) ∈ placed k s) :
    k ≤ p ∧ p < k + s.length := by
  induction s generalizing k with
  | nil => cases h
  | cons d s ih =>
      obtain heq | hrest := List.mem_cons.mp h
      · obtain ⟨-, hplace⟩ := Prod.mk.inj heq
        obtain rfl := Option.some.inj hplace
        rw [List.length_cons]
        omega
      · have := ih hrest
        rw [List.length_cons]
        omega

/-- Follow the script that belongs to the symbols; those of the mask have no place. -/
def follow (script : List α → List Edit) (mask : List α) (s : List (α × Option Nat)) :
    List (α × Option Nat) :=
  edited (mask.map fun c => (c, none)) (script (s.map Prod.fst)) s

theorem map_fst_follow (script : List α → List Edit) (mask : List α) (s : List (α × Option Nat)) :
    (follow script mask s).map Prod.fst
      = edited mask (script (s.map Prod.fst)) (s.map Prod.fst) := by
  unfold follow
  rw [map_edited, List.map_map]
  exact congrArg (edited · _ _) (List.map_id mask)

theorem mem_follow {script : List α → List Edit} {mask : List α} {s : List (α × Option Nat)} {c : α}
    {p : Nat} (h : (c, some p) ∈ follow script mask s) : (c, some p) ∈ s := by
  obtain hmask | hs := mem_edited h
  · obtain ⟨d, -, heq⟩ := List.mem_map.mp hmask
    cases heq
  · exact hs

/-! ## §3. Replacing a pattern. -/

variable [DecidableEq α]

/-- The script of `replaceFrom`. -/
def replaceEdits (pat : List α) : Nat → List α → List Edit
  | _, [] => []
  | k + 1, _ :: s => replaceEdits pat k s
  | 0, c :: s =>
      if pat <+: c :: s then .mask pat.length :: replaceEdits pat (pat.length - 1) s
      else .keep 1 :: replaceEdits pat 0 s

theorem edited_replaceEdits {pat : List α} (hpat : pat ≠ []) (mask : List α) (k : Nat)
    (s : List α) : edited mask (replaceEdits pat k s) (s.drop k) = replaceFrom pat mask k s := by
  induction s generalizing k with
  | nil =>
      rw [List.drop_nil]
      cases k <;> rfl
  | cons c s ih =>
      cases k with
      | succ k => exact ih k
      | zero =>
          by_cases hpre : pat <+: c :: s
          · have hlength : pat.length = pat.length - 1 + 1 := by
              have := List.length_pos_of_ne_nil hpat
              omega
            simp only [replaceEdits, replaceFrom, if_pos hpre]
            rw [← ih]
            show mask ++ edited mask _ ((c :: s).drop pat.length) = _
            conv_lhs => rw [hlength]
            rfl
          · simp only [replaceEdits, replaceFrom, if_neg hpre]
            exact congrArg (c :: ·) (ih 0)

end QingzhouSSH.Lib.Text
