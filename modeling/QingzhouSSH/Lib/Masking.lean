/-
  QingzhouSSH.Lib.Masking — texts in which pieces are replaced by one and the same mask.

  A pattern lies apart from the mask when neither holds the other and none of them ends
  as the other begins.  Replacing pieces by the mask then never makes an occurrence of the
  pattern, and replacing the pattern leaves none.

  Main results:
    * `Masks.not_occurs` — no occurrence is made;
    * `not_infix_replace` — none is left of what is replaced.
-/
import Mathlib.Data.List.Infix
import QingzhouSSH.Lib.Text

namespace QingzhouSSH.Lib.Text

variable {α : Type*}

/-! ## §1. Patterns apart from a mask. -/

/-- Neither text holds the other, and no end of one is a start of the other. -/
structure ApartFrom (mask pat : List α) : Prop where
  notIn : ¬pat <:+: mask
  notAround : ¬mask <:+: pat
  notBefore : ∀ w, w ≠ [] → w <:+ pat → ¬w <+: mask
  notAfter : ∀ w, w ≠ [] → w <:+ mask → ¬w <+: pat

theorem ApartFrom.ne_nil {mask pat : List α} (h : ApartFrom mask pat) : pat ≠ [] := by
  rintro rfl
  exact h.notIn List.nil_infix

instance [DecidableEq α] (mask pat : List α) : Decidable (ApartFrom mask pat) :=
  decidable_of_iff (¬pat <:+: mask ∧ ¬mask <:+: pat
      ∧ (∀ w ∈ pat.tails, w ≠ [] → ¬w <+: mask) ∧ ∀ w ∈ mask.tails, w ≠ [] → ¬w <+: pat)
    ⟨fun ⟨hin, haround, hbefore, hafter⟩ =>
      ⟨hin, haround, fun w hne h => hbefore w ((List.mem_tails w pat).mpr h) hne,
        fun w hne h => hafter w ((List.mem_tails w mask).mpr h) hne⟩,
    fun h => ⟨h.notIn, h.notAround, fun w hmem hne => h.notBefore w hne ((List.mem_tails w pat).mp hmem),
      fun w hmem hne => h.notAfter w hne ((List.mem_tails w mask).mp hmem)⟩⟩

/-- Pieces of the text are replaced by the mask, and the rest is kept. -/
inductive Masks (mask : List α) : List α → List α → Prop where
  | nil : Masks mask [] []
  | keep (c : α) {s t : List α} (h : Masks mask s t) : Masks mask (c :: s) (c :: t)
  | mask (piece : List α) {s t : List α} (h : Masks mask s t) :
      Masks mask (piece ++ s) (mask ++ t)

namespace Masks

variable {mask pat s t : List α}

theorem refl (s : List α) : Masks mask s s := by
  induction s with
  | nil => exact .nil
  | cons c s ih => exact .keep c ih

theorem append {s' t' : List α} (h : Masks mask s t) (h' : Masks mask s' t') :
    Masks mask (s ++ s') (t ++ t') := by
  induction h with
  | nil => exact h'
  | keep c _ ih => exact .keep c ih
  | mask piece _ ih =>
      rw [List.append_assoc, List.append_assoc]
      exact .mask piece ih

/-- A piece that is replaced. -/
theorem piece (hidden : List α) : Masks mask hidden mask := by
  have h : Masks mask (hidden ++ []) (mask ++ []) := .mask hidden .nil
  rwa [List.append_nil, List.append_nil] at h

/-- What an end of the pattern meets at the front of the masked text was there before. -/
theorem front_of_front (hapart : ApartFrom mask pat) (h : Masks mask s t) {w : List α}
    (hsuffix : w <:+ pat) (hfront : w <+: t) : w <+: s := by
  induction h generalizing w with
  | nil => exact hfront
  | keep c _ ih =>
      cases w with
      | nil => exact List.nil_prefix
      | cons d w =>
          obtain ⟨rfl, hrest⟩ := List.cons_prefix_cons.mp hfront
          have htail : w <:+ pat := (List.suffix_cons d w).trans hsuffix
          exact List.cons_prefix_cons.mpr ⟨rfl, ih htail hrest⟩
  | @mask piece s t _ _ =>
      by_cases hnil : w = []
      · subst hnil
        exact List.nil_prefix
      · -- the pattern would overlap the mask
        rcases List.prefix_or_prefix_of_prefix hfront (List.prefix_append mask t) with hin | hover
        · exact absurd hin (hapart.notBefore w hnil hsuffix)
        · exact absurd (hover.isInfix.trans hsuffix.isInfix) hapart.notAround

/-- No occurrence of the pattern starts inside a mask. -/
theorem not_prefix_of_mask (hapart : ApartFrom mask pat) {a b : List α} (hmask : mask = a ++ b)
    (hb : b ≠ []) : ¬pat <+: b ++ t := by
  intro hfront
  have hsuffix : b <:+ mask := ⟨a, hmask.symm⟩
  rcases List.prefix_or_prefix_of_prefix hfront (List.prefix_append b t) with hin | hover
  · exact hapart.notIn (hin.isInfix.trans hsuffix.isInfix)
  · exact hapart.notAfter b hb hsuffix hover

/-- An occurrence in a text that starts with the mask lies behind it. -/
theorem infix_behind_mask (hapart : ApartFrom mask pat) (h : pat <:+: mask ++ t) : pat <:+: t := by
  have hbehind : ∀ a b, mask = a ++ b → pat <:+: b ++ t → pat <:+: t := by
    intro a b
    induction b generalizing a with
    | nil => exact fun _ h => h
    | cons c b ih =>
        intro hmask hin
        rw [List.cons_append, List.infix_cons_iff] at hin
        rcases hin with hfirst | hrest
        · exact absurd hfirst (not_prefix_of_mask hapart hmask (List.cons_ne_nil c b))
        · exact ih (a ++ [c]) (by rw [hmask, List.append_assoc, List.singleton_append]) hrest
  exact hbehind [] mask rfl h

/-- **Masking makes no occurrence of a pattern that lies apart from the mask.** -/
theorem not_occurs (hapart : ApartFrom mask pat) (h : Masks mask s t) (hnone : ¬pat <:+: s) :
    ¬pat <:+: t := by
  induction h with
  | nil => exact hnone
  | @keep c s t hrest ih =>
      rw [List.infix_cons_iff, not_or]
      refine ⟨fun hfirst => hnone ?_, ih fun hin => hnone (hin.trans (List.infix_cons List.infix_rfl))⟩
      exact (front_of_front hapart (.keep c hrest) (List.suffix_refl pat) hfirst).isInfix
  | @mask piece s t _ ih =>
      intro hin
      refine ih (fun hs => hnone ?_) (infix_behind_mask hapart hin)
      exact hs.trans (List.suffix_append piece s).isInfix

end Masks

/-! ## §2. Replacing a pattern. -/

variable [DecidableEq α] {mask pat : List α}

/-- What is kept and what is replaced, one symbol or one occurrence after the other. -/
theorem replace_induction {motive : List α → Prop} (hpat : pat ≠ []) (nil : motive [])
    (found : ∀ s, motive s → motive (pat ++ s))
    (other : ∀ c s, ¬pat <+: c :: s → motive s → motive (c :: s)) (s : List α) : motive s := by
  suffices hall : ∀ n (s : List α), s.length ≤ n → motive s from hall _ s (Nat.le_refl _)
  intro n
  induction n with
  | zero =>
      intro s hn
      rw [List.length_eq_zero_iff.mp (Nat.le_zero.mp hn)]
      exact nil
  | succ n ih =>
      intro s hn
      cases s with
      | nil => exact nil
      | cons c s =>
          by_cases hpre : pat <+: c :: s
          · obtain ⟨rest, hrest⟩ := hpre
            have hlen := congrArg List.length hrest
            have hpos := List.length_pos_of_ne_nil hpat
            rw [List.length_append, List.length_cons] at hlen
            rw [List.length_cons] at hn
            rw [← hrest]
            exact found rest (ih rest (by omega))
          · exact other c s hpre (ih s (Nat.le_of_succ_le_succ hn))

theorem masks_replace (hpat : pat ≠ []) (s : List α) : Masks mask s (replace pat mask s) := by
  induction s using replace_induction hpat with
  | nil => exact .nil
  | found s ih =>
      rw [replace_pat_append hpat]
      exact .mask pat ih
  | other c s hpre ih =>
      rw [replace_cons_of_ne mask hpre]
      exact .keep c ih

/-- **Nothing is left of a pattern that is replaced.** -/
theorem not_infix_replace (hpat : pat ≠ []) (hapart : ApartFrom mask pat) (s : List α) :
    ¬pat <:+: replace pat mask s := by
  induction s using replace_induction hpat with
  | nil => exact fun h => hpat (List.infix_nil.mp h)
  | found s ih =>
      rw [replace_pat_append hpat]
      exact fun h => ih (Masks.infix_behind_mask hapart h)
  | other c s hpre ih =>
      have hmasks : Masks mask (c :: s) (replace pat mask (c :: s)) := masks_replace hpat _
      rw [replace_cons_of_ne mask hpre] at hmasks ⊢
      rw [List.infix_cons_iff, not_or]
      exact ⟨fun hfirst => hpre (hmasks.front_of_front hapart (List.suffix_refl pat) hfirst), ih⟩

end QingzhouSSH.Lib.Text
