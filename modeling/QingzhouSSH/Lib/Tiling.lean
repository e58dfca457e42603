/-
  QingzhouSSH.Lib.Tiling — pieces that make up a range of numbers.

  A piece is where it starts and how long it is.  Pieces in any order cover a range when
  some order of them runs from its start to its end without a gap or an overlap.

  Main results:
    * `Chain.covers_once` — every number of the range lies in one piece;
    * `Covers.split` — a piece can be cut in two;
    * `Covers.dropFirst`, `Covers.exists_first` — the piece at the start, and the rest;
    * `Covers.sum`, `Covers.inside`, `Covers.apart` — how long the pieces are together,
      where they lie, and that no two start at one place.
-/
import Mathlib.Algebra.BigOperators.Group.List.Basic
import Mathlib.Algebra.GroupWithZero.Nat
import Mathlib.Data.List.Perm.Basic

namespace QingzhouSSH.Lib

/-! ## §1. Chains. -/

abbrev Piece := Nat × Nat

/-- Each piece starts where the last one ends, from `a` to `b`. -/
def Chain : List Piece → Nat → Nat → Prop
  | [], a, b => a = b
  | piece :: rest, a, b => piece.1 = a ∧ 0 < piece.2 ∧ Chain rest (a + piece.2) b

namespace Chain

variable {chain : List Piece} {a b : Nat}

theorem sum (h : Chain chain a b) : a + (chain.map Prod.snd).sum = b := by
  induction chain generalizing a with
  | nil => exact h
  | cons piece rest ih =>
      have hrest := ih h.2.2
      rw [List.map_cons, List.sum_cons]
      omega

theorem inside (h : Chain chain a b) {piece : Piece} (hmem : piece ∈ chain) :
    a ≤ piece.1 ∧ 0 < piece.2 ∧ piece.1 + piece.2 ≤ b := by
  induction chain generalizing a with
  | nil => cases hmem
  | cons first rest ih =>
      obtain ⟨rfl, hpos, hrest⟩ := h
      rcases List.mem_cons.mp hmem with rfl | hmem
      · have hsum := hrest.sum
        exact ⟨Nat.le_refl _, hpos, by omega⟩
      · obtain ⟨hfrom, hpiece, hto⟩ := ih hrest hmem
        exact ⟨by omega, hpiece, hto⟩

/-- A piece in a chain can be cut in two. -/
theorem split {before after : List Piece} {start n m : Nat}
    (h : Chain (before ++ (start, n + m) :: after) a b) (hn : 0 < n) (hm : 0 < m) :
    Chain (before ++ (start, n) :: (start + n, m) :: after) a b := by
  induction before generalizing a with
  | nil =>
      obtain ⟨rfl, _, hafter⟩ := h
      refine ⟨rfl, hn, rfl, hm, ?_⟩
      show Chain after (start + n + m) b
      rw [Nat.add_assoc]
      exact hafter
  | cons first before ih => exact ⟨h.1, h.2.1, ih h.2.2⟩

theorem append {more : List Piece} {c : Nat} (h : Chain chain a b) (hmore : Chain more b c) :
    Chain (chain ++ more) a c := by
  induction chain generalizing a with
  | nil =>
      cases (h : a = b)
      exact hmore
  | cons piece rest ih => exact ⟨h.1, h.2.1, ih h.2.2⟩

/-- Every number of the range lies in one piece. -/
theorem covers_once (h : Chain chain a b) {n : Nat} (hfrom : a ≤ n) (hto : n < b) :
    (chain.countP fun piece => decide (piece.1 ≤ n ∧ n < piece.1 + piece.2)) = 1 := by
  induction chain generalizing a with
  | nil =>
      have hempty : a = b := h
      omega
  | cons first rest ih =>
      obtain ⟨rfl, hpos, hrest⟩ := h
      by_cases hin : n < first.1 + first.2
      · -- the pieces behind the first lie beyond the number
        have hnone : (rest.countP fun piece => decide (piece.1 ≤ n ∧ n < piece.1 + piece.2)) = 0 := by
          rw [List.countP_eq_zero]
          intro piece hmem hpiece
          have hbeyond := (hrest.inside hmem).1
          have hpiece := (of_decide_eq_true hpiece).1
          omega
        rw [List.countP_cons, hnone, if_pos (decide_eq_true ⟨hfrom, hin⟩)]
      · rw [List.countP_cons, if_neg fun hfirst => hin (of_decide_eq_true hfirst).2, Nat.add_zero]
        exact ih hrest (by omega)

theorem starts_ascend (h : Chain chain a b) : chain.Pairwise fun x y => x.1 < y.1 := by
  induction chain generalizing a with
  | nil => exact .nil
  | cons first rest ih =>
      obtain ⟨rfl, hpos, hrest⟩ := h
      refine .cons (fun piece hmem => ?_) (ih hrest)
      have hfrom := (hrest.inside hmem).1
      omega

end Chain

/-! ## §2. Pieces in any order. -/

/-- The pieces make up the range from `a` to `b`. -/
def Covers (pieces : List Piece) (a b : Nat) : Prop :=
  ∃ chain, chain.Perm pieces ∧ Chain chain a b

namespace Covers

variable {pieces : List Piece} {a b : Nat}

theorem perm {pieces' : List Piece} (h : Covers pieces a b) (hperm : pieces.Perm pieces') :
    Covers pieces' a b := by
  obtain ⟨chain, hchain, h⟩ := h
  exact ⟨chain, hchain.trans hperm, h⟩

theorem of_chain (h : Chain pieces a b) : Covers pieces a b := ⟨pieces, .refl _, h⟩

theorem sum (h : Covers pieces a b) : a + (pieces.map Prod.snd).sum = b := by
  obtain ⟨chain, hchain, h⟩ := h
  rw [← (hchain.map Prod.snd).sum_eq]
  exact h.sum

theorem inside (h : Covers pieces a b) {piece : Piece} (hmem : piece ∈ pieces) :
    a ≤ piece.1 ∧ 0 < piece.2 ∧ piece.1 + piece.2 ≤ b := by
  obtain ⟨chain, hchain, h⟩ := h
  exact h.inside (hchain.mem_iff.mpr hmem)

/-- **A piece can be cut in two.** -/
theorem split {start n m : Nat} (h : Covers ((start, n + m) :: pieces) a b) (hn : 0 < n)
    (hm : 0 < m) : Covers ((start, n) :: (start + n, m) :: pieces) a b := by
  obtain ⟨chain, hchain, h⟩ := h
  obtain ⟨before, after, rfl⟩ := List.append_of_mem (hchain.mem_iff.mpr List.mem_cons_self)
  refine ⟨_, ?_, h.split hn hm⟩
  have hrest : (before ++ after).Perm pieces :=
    (List.perm_middle.symm.trans hchain).cons_inv
  exact List.perm_middle.trans ((List.perm_middle.trans (hrest.cons _)).cons _)

/-- No two pieces start at one place. -/
theorem apart (h : Covers pieces a b) : (pieces.map Prod.fst).Nodup := by
  obtain ⟨chain, hchain, h⟩ := h
  rw [← (hchain.map Prod.fst).nodup_iff]
  exact List.pairwise_map.mpr (h.starts_ascend.imp fun hlt => Nat.ne_of_lt hlt)

/-- **Without the piece at the start, the rest covers what remains.** -/
theorem dropFirst {n : Nat} (h : Covers ((a, n) :: pieces) a b) : Covers pieces (a + n) b := by
  obtain ⟨chain, hchain, h⟩ := h
  cases chain with
  | nil => exact absurd hchain.length_eq (by simp)
  | cons first rest =>
      obtain ⟨hfirst, hpos, hrest⟩ := h
      -- the chain begins with the only piece that starts at `a`
      have hsame : first = (a, n) := by
        rcases List.mem_cons.mp (hchain.mem_iff.mpr List.mem_cons_self) with heq | hmem
        · exact heq.symm
        · have hfrom := (hrest.inside hmem).1
          have hbeyond : ¬ a + first.2 ≤ a := by omega
          exact absurd hfrom hbeyond
      subst hsame
      exact ⟨rest, hchain.cons_inv, hrest⟩

/-- Some piece lies at the start of a range that is not empty. -/
theorem exists_first (h : Covers pieces a b) (hlt : a < b) : ∃ n, (a, n) ∈ pieces := by
  obtain ⟨chain, hchain, h⟩ := h
  cases chain with
  | nil => exact absurd h (Nat.ne_of_lt hlt)
  | cons first rest =>
      refine ⟨first.2, hchain.mem_iff.mp ?_⟩
      rw [← h.1]
      exact List.mem_cons_self

end Covers

end QingzhouSSH.Lib
