/-
  QingzhouSSH.Lib.Text — searching and replacing in a list of symbols.

  Leftmost search (`splitFirst`) and leftmost, non-overlapping replacement
  (`replace`) of a fixed pattern, over any alphabet with decidable equality.
  Both are structural in the text, so a closed instance evaluates.

  Main results:
    * `replace_pat_append`, `replace_cons_of_ne` — the two scanning rules;
    * `replace_append` — a cut no occurrence straddles splits a replacement;
    * `joined_inj` — when joined texts can be told apart again;
    * `splitFirst_some`, `splitFirst_none`, `splitFirst_append` — what the leftmost search returns;
    * `splitFirst_append_of_some`, `splitFirst_append_of_none` — the search over a cut.
-/
import Mathlib.Data.List.Basic
import Mathlib.Data.List.Infix

namespace QingzhouSSH.Lib.Text

variable {α : Type*} [DecidableEq α]

/-! ## §1. Prefixes and occurrences. -/

/-- A property of the characters of a text is decided on these characters alone. -/
instance decidableForallChar {p : Char → Prop} [DecidablePred p] (s : List Char) :
    Decidable (∀ c ∈ s, p c) :=
  List.decidableBAll p s

instance decidableExistsChar {p : Char → Prop} [DecidablePred p] (s : List Char) :
    Decidable (∃ c ∈ s, p c) :=
  List.decidableBEx p s

/-- Found at once, where a definition asks whether a text is in a list. -/
instance lawfulBEqChars : LawfulBEq (List Char) := inferInstance

/-- `pat` occurs somewhere in `s`. -/
def contains (s pat : List α) : Bool := decide (pat <:+: s)

@[simp] theorem contains_eq_true {s pat : List α} : contains s pat = true ↔ pat <:+: s := by
  simp [contains]

@[simp] theorem contains_eq_false {s pat : List α} : contains s pat = false ↔ ¬ pat <:+: s := by
  simp [contains]

/-! ## §2. Leftmost search. -/

/-- The text before and after the leftmost occurrence of `pat`. -/
def splitFirst (pat : List α) : List α → Option (List α × List α)
  | [] => if pat = [] then some ([], []) else none
  | c :: s =>
      if pat <+: c :: s then some ([], (c :: s).drop pat.length)
      else (splitFirst pat s).map fun r => (c :: r.1, r.2)

theorem splitFirst_some {pat : List α} :
    ∀ {s before after : List α}, splitFirst pat s = some (before, after) →
      s = before ++ pat ++ after := by
  intro s
  induction s with
  | nil =>
      intro before after h
      simp only [splitFirst] at h
      split at h
      next hp =>
        simp only [Option.some.injEq, Prod.mk.injEq] at h
        obtain ⟨rfl, rfl⟩ := h
        simp [hp]
      next => exact absurd h (by simp)
  | cons c s ih =>
      intro before after h
      simp only [splitFirst] at h
      split at h
      next hp =>
        simp only [Option.some.injEq, Prod.mk.injEq] at h
        obtain ⟨rfl, rfl⟩ := h
        obtain ⟨t, ht⟩ := hp
        rw [← ht]
        simp
      next =>
        rw [Option.map_eq_some_iff] at h
        obtain ⟨⟨b, a⟩, hs, heq⟩ := h
        simp only [Prod.mk.injEq] at heq
        obtain ⟨rfl, rfl⟩ := heq
        rw [ih hs]
        rfl

theorem splitFirst_none {pat : List α} :
    ∀ {s : List α}, splitFirst pat s = none ↔ ¬ pat <:+: s := by
  intro s
  induction s with
  | nil =>
      by_cases hp : pat = []
      · simp [splitFirst, hp]
      · simp [splitFirst, hp]
  | cons c s ih =>
      by_cases hp : pat <+: c :: s
      · simp only [splitFirst, if_pos hp, reduceCtorEq, false_iff, not_not]
        exact hp.isInfix
      · simp only [splitFirst, if_neg hp, Option.map_eq_none_iff, ih]
        rw [List.infix_cons_iff]
        tauto

/-- The leftmost occurrence, when none starts earlier. -/
theorem splitFirst_append {pat : List α} (hpat : pat ≠ []) {before after : List α}
    (h : ∀ a b, before = a ++ b → b ≠ [] → ¬ pat <+: b ++ (pat ++ after)) :
    splitFirst pat (before ++ (pat ++ after)) = some (before, after) := by
  induction before with
  | nil =>
      cases pat with
      | nil => exact absurd rfl hpat
      | cons d pat =>
          have hpre : d :: pat <+: d :: (pat ++ after) := ⟨after, rfl⟩
          show splitFirst (d :: pat) (d :: (pat ++ after)) = _
          rw [splitFirst, if_pos hpre]
          simp
  | cons c before ih =>
      have htail := ih fun a b hab => h (c :: a) b (by rw [hab]; rfl)
      have hpre : ¬ pat <+: c :: (before ++ (pat ++ after)) := h [] (c :: before) rfl (by simp)
      show splitFirst pat (c :: (before ++ (pat ++ after))) = _
      rw [splitFirst, if_neg hpre, htail]
      rfl

/-- One symbol is found where the text before does not have it. -/
theorem isPrefixOf?_append (pat s : List α) : pat.isPrefixOf? (pat ++ s) = some s := by
  induction pat with
  | nil => rfl
  | cons c pat ih =>
      show (if (c == c) = true then pat.isPrefixOf? (pat ++ s) else none) = _
      rw [if_pos (beq_self_eq_true c), ih]

theorem splitFirst_singleton {c : α} {before : List α} (h : c ∉ before) (after : List α) :
    splitFirst [c] (before ++ c :: after) = some (before, after) := by
  refine splitFirst_append (List.cons_ne_nil c []) fun a b hbefore hb hfront => ?_
  obtain ⟨d, rest, rfl⟩ := List.exists_cons_of_ne_nil hb
  obtain ⟨rfl, -⟩ := List.cons_prefix_cons.mp hfront
  exact h (hbefore ▸ List.mem_append_right a List.mem_cons_self)

/-- No occurrence starts before the leftmost one. -/
theorem splitFirst_least {pat : List α} :
    ∀ {s before after : List α}, splitFirst pat s = some (before, after) →
      ∀ {u v : List α}, s = u ++ (pat ++ v) → before.length ≤ u.length := by
  intro s
  induction s with
  | nil =>
      intro before after h u v _
      simp only [splitFirst] at h
      split at h
      next =>
        simp only [Option.some.injEq, Prod.mk.injEq] at h
        rw [← h.1]
        exact Nat.zero_le _
      next => exact absurd h (by simp)
  | cons c s ih =>
      intro before after h u v hsplit
      simp only [splitFirst] at h
      split at h
      next =>
        simp only [Option.some.injEq, Prod.mk.injEq] at h
        rw [← h.1]
        exact Nat.zero_le _
      next hpre =>
        obtain ⟨⟨b, a⟩, hs, heq⟩ := Option.map_eq_some_iff.mp h
        simp only [Prod.mk.injEq] at heq
        obtain ⟨rfl, rfl⟩ := heq
        cases u with
        | nil => exact absurd ⟨v, hsplit.symm⟩ hpre
        | cons d u =>
            have := ih hs (List.cons.inj hsplit).2
            simp only [List.length_cons]
            omega

/-- An occurrence that has been found stays the leftmost one. -/
theorem splitFirst_append_of_some {pat : List α} (t : List α) :
    ∀ {s before after : List α}, splitFirst pat s = some (before, after) →
      splitFirst pat (s ++ t) = some (before, after ++ t) := by
  intro s
  induction s with
  | nil =>
      intro before after h
      simp only [splitFirst] at h
      split at h
      next hpat =>
        simp only [Option.some.injEq, Prod.mk.injEq] at h
        obtain ⟨rfl, rfl⟩ := h
        subst hpat
        cases t <;> simp [splitFirst]
      next => exact absurd h (by simp)
  | cons c s ih =>
      intro before after h
      have hlen : pat.length ≤ (c :: s).length := by
        rw [splitFirst_some h]
        simp only [List.length_append]
        omega
      have hpre : pat <+: c :: (s ++ t) ↔ pat <+: c :: s := by
        constructor
        · intro hp
          exact List.prefix_of_prefix_length_le hp ⟨t, rfl⟩ hlen
        · rintro ⟨u, hu⟩
          exact ⟨u ++ t, by rw [← List.append_assoc, hu]; rfl⟩
      rw [List.cons_append, splitFirst]
      simp only [splitFirst] at h
      split at h
      next hp =>
        simp only [Option.some.injEq, Prod.mk.injEq] at h
        obtain ⟨rfl, rfl⟩ := h
        rw [if_pos (hpre.mpr hp), ← List.cons_append, List.drop_append_of_le_length hlen]
      next hp =>
        obtain ⟨⟨b, a⟩, hs, heq⟩ := Option.map_eq_some_iff.mp h
        simp only [Prod.mk.injEq] at heq
        obtain ⟨rfl, rfl⟩ := heq
        rw [if_neg (fun h => hp (hpre.mp h)), ih hs]
        rfl

/-! ## §3. Replacement. -/

/-- Scan `s`, first dropping `skip` symbols that an occurrence already covers. -/
def replaceFrom (pat new : List α) : Nat → List α → List α
  | _, [] => []
  | k + 1, _ :: s => replaceFrom pat new k s
  | 0, c :: s =>
      if pat <+: c :: s then new ++ replaceFrom pat new (pat.length - 1) s
      else c :: replaceFrom pat new 0 s

/-- Every leftmost, non-overlapping occurrence of `pat` becomes `new`. -/
def replace (pat new s : List α) : List α := replaceFrom pat new 0 s

@[simp] theorem replace_nil (pat new : List α) : replace pat new [] = [] := rfl

theorem replaceFrom_eq_drop (pat new : List α) :
    ∀ (k : Nat) (s : List α), replaceFrom pat new k s = replace pat new (s.drop k) := by
  intro k
  induction k with
  | zero => intro s; rfl
  | succ k ih =>
      intro s
      cases s with
      | nil => rfl
      | cons c s => exact ih s

theorem replace_cons_of_ne {pat : List α} (new : List α) {c : α} {s : List α}
    (h : ¬ pat <+: c :: s) : replace pat new (c :: s) = c :: replace pat new s := by
  show (if pat <+: c :: s then _ else c :: replaceFrom pat new 0 s) = _
  rw [if_neg h]
  rfl

theorem replace_pat_append {pat : List α} (hpat : pat ≠ []) (new s : List α) :
    replace pat new (pat ++ s) = new ++ replace pat new s := by
  cases pat with
  | nil => exact absurd rfl hpat
  | cons c rest =>
      show (if c :: rest <+: c :: (rest ++ s) then
          new ++ replaceFrom (c :: rest) new rest.length (rest ++ s) else _) = _
      rw [if_pos ⟨s, rfl⟩, replaceFrom_eq_drop, List.drop_left]

/-- No occurrence of `pat` in `p ++ s` starts in `p` and ends in `s`. -/
def NoStraddle (pat p s : List α) : Prop :=
  ∀ a b, p = a ++ b → b ≠ [] → pat <+: b ++ s → pat <+: b

omit [DecidableEq α] in
theorem NoStraddle.suffix {pat a b s : List α} (h : NoStraddle pat (a ++ b) s) :
    NoStraddle pat b s := by
  intro c d hcd hd hp
  exact h (a ++ c) d (by rw [hcd, List.append_assoc]) hd hp

/-- A text that ends in a symbol that the pattern does not have. -/
def EndsOff (pat s : List α) : Prop := ∀ c ∈ s.getLast?, c ∉ pat

omit [DecidableEq α] in
theorem EndsOff.of_suffix {pat r s : List α} (h : EndsOff pat s) (hr : r <:+ s) :
    EndsOff pat r := by
  intro c hc
  refine h c ?_
  obtain ⟨a, rfl⟩ := hr
  rw [Option.mem_def] at hc ⊢
  rw [List.getLast?_append, hc]
  rfl

omit [DecidableEq α] in
theorem EndsOff.noStraddle {pat p : List α} (h : EndsOff pat p) (s : List α) :
    NoStraddle pat p s := by
  intro a b hab hb hp
  by_cases hlen : pat.length ≤ b.length
  · exact List.prefix_of_prefix_length_le hp ⟨s, rfl⟩ hlen
  · -- otherwise all of `b` belongs to the occurrence, with its last symbol
    have hbp : b <+: pat := List.prefix_of_prefix_length_le ⟨s, rfl⟩ hp (by omega)
    refine absurd (hbp.subset (List.getLast_mem hb)) (h _ ?_)
    rw [hab, List.getLast?_append_of_ne_nil _ hb, List.getLast?_eq_some_getLast hb]
    rfl

/-- Where the left part has no occurrence, the first one is that of the right part. -/
theorem splitFirst_append_of_none {pat s : List α} :
    ∀ {p : List α}, splitFirst pat p = none → NoStraddle pat p s →
      splitFirst pat (p ++ s) = (splitFirst pat s).map fun r => (p ++ r.1, r.2) := by
  intro p
  induction p with
  | nil =>
      intro _ _
      rw [List.nil_append]
      cases hs : splitFirst pat s <;> rfl
  | cons c p ih =>
      intro hnone hcut
      have hpre : ¬ pat <+: c :: p := by
        intro hp
        exact splitFirst_none.mp hnone hp.isInfix
      have hrest : splitFirst pat p = none := by
        rw [splitFirst_none]
        intro hp
        exact splitFirst_none.mp hnone (hp.trans (List.infix_cons List.infix_rfl))
      have hpre' : ¬ pat <+: c :: (p ++ s) := fun hp =>
        hpre (hcut [] (c :: p) rfl (List.cons_ne_nil c p) hp)
      rw [List.cons_append, splitFirst, if_neg hpre',
        ih hrest (NoStraddle.suffix (a := [c]) hcut), Option.map_map]
      rfl

/-- **A cut that no occurrence straddles splits the replacement.** -/
theorem replace_append {pat : List α} (hpat : pat ≠ []) (new : List α) :
    ∀ (n : Nat) (p s : List α), p.length ≤ n → NoStraddle pat p s →
      replace pat new (p ++ s) = replace pat new p ++ replace pat new s := by
  intro n
  induction n with
  | zero =>
      intro p s hn _
      rw [List.length_eq_zero_iff.mp (Nat.le_zero.mp hn)]
      rfl
  | succ n ih =>
      intro p s hn hcut
      cases p with
      | nil => rfl
      | cons c p =>
          by_cases hpre : pat <+: c :: p
          · obtain ⟨q, hq⟩ := hpre
            have hlen : q.length ≤ n := by
              have h1 := congrArg List.length hq
              have h2 := List.length_pos_of_ne_nil hpat
              simp only [List.length_append, List.length_cons] at h1 hn
              omega
            have hcut' : NoStraddle pat q s := by
              intro a b hab hb hp
              exact hcut (pat ++ a) b (by rw [← hq, hab, List.append_assoc]) hb hp
            rw [← hq, List.append_assoc, replace_pat_append hpat, replace_pat_append hpat,
              ih q s hlen hcut', List.append_assoc]
          · have hpre' : ¬ pat <+: c :: (p ++ s) := by
              intro h
              exact hpre (hcut [] (c :: p) rfl (by simp) h)
            have hcut' : NoStraddle pat p s := by
              intro a b hab hb hp
              exact hcut (c :: a) b (by rw [hab]; rfl) hb hp
            show replace pat new (c :: (p ++ s)) = _
            rw [replace_cons_of_ne new hpre', replace_cons_of_ne new hpre,
              ih p s (by simpa using hn) hcut']
            rfl

/-! ## §4. Joined texts. -/

/-- One text starts with the other and a separator. -/
def Apart (sep s t : List α) : Prop := ¬ s ++ sep <+: t ∧ ¬ t ++ sep <+: s

omit [DecidableEq α] in
theorem not_prefix_step {a b : α} (hab : a ≠ b) {x u r s : List α} (hu : u ≠ [])
    (h : [a, b] ++ r = u ++ ([a, b] ++ s)) : x ++ [a, b] <+: x ++ u := by
  rw [List.prefix_append_right_inj]
  obtain ⟨c, u, rfl⟩ := List.exists_cons_of_ne_nil hu
  obtain ⟨rfl, htail⟩ := List.cons.inj h
  cases u with
  | nil => exact absurd (List.cons.inj htail).1.symm hab
  | cons d u =>
      obtain ⟨rfl, _⟩ := List.cons.inj htail
      exact ⟨u, rfl⟩

omit [DecidableEq α] in
/-- **Texts joined by two different symbols can be told apart again when no text
continues the other one with the separator.** -/
theorem joined_inj {a b : α} (hab : a ≠ b) {xs ys : List (List α)}
    (hapart : List.Forall₂ (Apart [a, b]) xs ys)
    (h : List.intercalate [a, b] xs = List.intercalate [a, b] ys) : xs = ys := by
  induction hapart with
  | nil => rfl
  | @cons x y xs ys hxy hrest ih =>
      cases hrest with
      | nil =>
          rw [List.intercalate_singleton, List.intercalate_singleton] at h
          rw [h]
      | @cons x' y' xs ys hxy' hrest =>
          rw [List.intercalate_cons_cons, List.intercalate_cons_cons, List.append_assoc,
            List.append_assoc] at h
          -- the shorter head is a beginning of the longer one
          rcases List.append_eq_append_iff.mp h with ⟨u, hy, hu⟩ | ⟨u, hx, hu⟩
          · by_cases hnil : u = []
            · subst hnil
              rw [List.append_nil] at hy
              rw [List.nil_append] at hu
              rw [hy, ih (List.append_cancel_left hu)]
            · refine absurd ?_ hxy.1
              rw [hy]
              exact not_prefix_step hab hnil hu
          · by_cases hnil : u = []
            · subst hnil
              rw [List.append_nil] at hx
              rw [List.nil_append] at hu
              rw [hx, ih (List.append_cancel_left hu).symm]
            · refine absurd ?_ hxy.2
              rw [hx]
              exact not_prefix_step hab hnil hu

end QingzhouSSH.Lib.Text
