/-
  QingzhouSSH.Lib.Splitting — the parts of a list between its separators.

  Main results:
    * `splitOn_eq_single_iff`, `splitOn_eq_pair_iff` — one part, and two parts;
    * `mem_words`, `words_congr` — the parts that are not empty, where several elements separate;
    * `splitPair_intercalate` — parts that are joined by two elements are found again.
-/
import Mathlib.Data.List.Basic

namespace QingzhouSSH.Lib.Splitting

variable {α : Type*}

/-! ## §1. One separator. -/

/-- No part has a separator in it. -/
theorem splitOnP_free {p : α → Bool} {s part : List α} (h : part ∈ s.splitOnP p) :
    ∀ c ∈ part, p c = false := by
  induction s generalizing part with
  | nil =>
      rw [List.splitOnP_nil, List.mem_singleton] at h
      subst h
      exact nofun
  | cons c s ih =>
      rw [List.splitOnP_cons_eq_if_modifyHead] at h
      by_cases hc : p c = true
      · rw [if_pos hc] at h
        rcases List.mem_cons.mp h with rfl | htail
        · exact nofun
        · exact ih htail
      · rw [if_neg hc] at h
        cases hparts : s.splitOnP p with
        | nil => exact absurd hparts (List.splitOnP_ne_nil p s)
        | cons first parts =>
            rw [hparts] at h ih
            rcases List.mem_cons.mp h with rfl | htail
            · intro d hd
              rcases List.mem_cons.mp hd with rfl | hd
              · simpa using hc
              · exact ih List.mem_cons_self d hd
            · exact ih (List.mem_cons_of_mem _ htail)

/-- A part of a joined list is in it as it is. -/
theorem infix_of_mem_intercalate {sep part : List α} {parts : List (List α)}
    (h : part ∈ parts) : part <:+: List.intercalate sep parts := by
  induction parts with
  | nil => exact absurd h List.not_mem_nil
  | cons first rest ih =>
      cases rest with
      | nil =>
          have hsame : part = List.intercalate sep [first] := by
            rw [List.intercalate_singleton, List.mem_singleton.mp h]
          exact List.IsPrefix.isInfix ⟨[], by rw [List.append_nil, hsame]⟩
      | cons next rest =>
          rw [List.intercalate_cons_cons, List.append_assoc]
          rcases List.mem_cons.mp h with rfl | h
          · exact (List.prefix_append _ _).isInfix
          · exact (ih h).trans ((List.suffix_append _ _).trans (List.suffix_append _ _)).isInfix

variable [DecidableEq α]

theorem infix_of_mem_splitOn {c : α} {s part : List α}
    (h : part ∈ s.splitOn c) : part <:+: s := by
  have hjoined := @infix_of_mem_intercalate _ [c] _ _ h
  rw [List.intercalate_splitOn] at hjoined
  exact hjoined

theorem splitOn_free {c : α} {s part : List α} (h : part ∈ s.splitOn c) : c ∉ part := by
  rw [List.splitOn_eq_splitOnP] at h
  intro hc
  have hfree := splitOnP_free h c hc
  rw [beq_self_eq_true] at hfree
  exact Bool.noConfusion hfree

/-- A list that is not split. -/
theorem splitOn_eq_single_iff {c : α} {s part : List α} :
    s.splitOn c = [part] ↔ s = part ∧ c ∉ s := by
  constructor
  · intro h
    have hjoined : [c].intercalate [part] = s := h ▸ List.intercalate_splitOn c
    rw [List.intercalate_singleton] at hjoined
    subst hjoined
    have hmem : part ∈ part.splitOn c := by
      rw [h]
      exact List.mem_cons_self
    exact ⟨rfl, splitOn_free hmem⟩
  · rintro ⟨rfl, hc⟩
    exact List.splitOn_eq_singleton hc

/-- A list that is split once. -/
theorem splitOn_eq_pair_iff {c : α} {s front back : List α} :
    s.splitOn c = [front, back] ↔ s = front ++ c :: back ∧ c ∉ front ∧ c ∉ back := by
  constructor
  · intro h
    have hjoined : [c].intercalate [front, back] = s := h ▸ List.intercalate_splitOn c
    have hmem : ∀ part ∈ [front, back], c ∉ part := by
      intro part hpart
      rw [← h] at hpart
      exact splitOn_free hpart
    refine ⟨?_, hmem front List.mem_cons_self, hmem back (List.mem_cons_of_mem _ List.mem_cons_self)⟩
    rw [← hjoined, List.intercalate_cons_cons, List.intercalate_singleton]
    rw [List.append_assoc]
    rfl
  · rintro ⟨rfl, hfront, hback⟩
    rw [List.splitOn_append_cons_self_of_not_mem hfront, List.splitOn_eq_singleton hback]

/-! ## §2. Words. -/

omit [DecidableEq α]

/-- The parts that are not empty. -/
def words (p : α → Bool) (s : List α) : List (List α) := (s.splitOnP p).filter fun w => !w.isEmpty

theorem mem_splitOnP {p : α → Bool} {s : List α} {c : α} (hc : c ∈ s) (hp : p c = false) :
    ∃ part ∈ s.splitOnP p, c ∈ part := by
  induction s with
  | nil => exact absurd hc List.not_mem_nil
  | cons d s ih =>
      rw [List.splitOnP_cons_eq_if_modifyHead]
      by_cases hd : p d = true
      · rw [if_pos hd]
        rcases List.mem_cons.mp hc with rfl | hc
        · rw [hp] at hd
          exact Bool.noConfusion hd
        · obtain ⟨part, hpart, hin⟩ := ih hc
          exact ⟨part, List.mem_cons_of_mem _ hpart, hin⟩
      · rw [if_neg hd]
        cases hparts : s.splitOnP p with
        | nil => exact absurd hparts (List.splitOnP_ne_nil p s)
        | cons first parts =>
            rw [hparts] at ih
            rcases List.mem_cons.mp hc with rfl | hc
            · exact ⟨_, List.mem_cons_self, List.mem_cons_self⟩
            · obtain ⟨part, hpart, hin⟩ := ih hc
              rcases List.mem_cons.mp hpart with rfl | hpart
              · exact ⟨_, List.mem_cons_self, List.mem_cons_of_mem d hin⟩
              · exact ⟨part, List.mem_cons_of_mem _ hpart, hin⟩

/-- **Every element that does not separate is in a word.** -/
theorem mem_words {p : α → Bool} {s : List α} {c : α} (hc : c ∈ s) (hp : p c = false) :
    ∃ word ∈ words p s, c ∈ word := by
  obtain ⟨part, hpart, hin⟩ := mem_splitOnP hc hp
  refine ⟨part, List.mem_filter.mpr ⟨hpart, ?_⟩, hin⟩
  cases part with
  | nil => exact absurd hin List.not_mem_nil
  | cons d part => rfl

/-- A part is part of the list. -/
theorem mem_of_mem_splitOnP {p : α → Bool} {s part : List α} (h : part ∈ s.splitOnP p) :
    ∀ c ∈ part, c ∈ s := by
  induction s generalizing part with
  | nil =>
      rw [List.splitOnP_nil, List.mem_singleton] at h
      subst h
      exact nofun
  | cons d s ih =>
      intro c hc
      rw [List.splitOnP_cons_eq_if_modifyHead] at h
      by_cases hd : p d = true
      · rw [if_pos hd] at h
        rcases List.mem_cons.mp h with rfl | h
        · exact absurd hc List.not_mem_nil
        · exact List.mem_cons_of_mem d (ih h c hc)
      · rw [if_neg hd] at h
        cases hparts : s.splitOnP p with
        | nil => exact absurd hparts (List.splitOnP_ne_nil p s)
        | cons first parts =>
            rw [hparts] at h ih
            rcases List.mem_cons.mp h with rfl | h
            · rcases List.mem_cons.mp hc with rfl | hc
              · exact List.mem_cons_self
              · exact List.mem_cons_of_mem d (ih List.mem_cons_self c hc)
            · exact List.mem_cons_of_mem d (ih (List.mem_cons_of_mem _ h) c hc)

theorem mem_of_mem_words {p : α → Bool} {s word : List α} (h : word ∈ words p s) :
    ∀ c ∈ word, c ∈ s :=
  mem_of_mem_splitOnP (List.mem_filter.mp h).1

/-- **Predicates that agree on a list separate the same words.** -/
theorem words_congr {p q : α → Bool} {s : List α} (h : ∀ c ∈ s, p c = q c) :
    words p s = words q s := by
  have hsplit : s.splitOnP p = s.splitOnP q := by
    induction s with
    | nil => rfl
    | cons c s ih =>
        rw [List.splitOnP_cons_eq_if_modifyHead, List.splitOnP_cons_eq_if_modifyHead,
          h c List.mem_cons_self, ih fun d hd => h d (List.mem_cons_of_mem c hd)]
  unfold words
  rw [hsplit]

/-! ## §3. A separator of two elements. -/

variable {β : Type*} [DecidableEq β]

/-- Put an element at the start of the first part. -/
def consFirst (c : β) : List (List β) → List (List β)
  | [] => [[c]]
  | part :: parts => (c :: part) :: parts

/-- The parts between the separators `a b`, found from the left. -/
def splitPair (a b : β) : List β → List (List β)
  | [] => [[]]
  | [c] => [[c]]
  | c :: d :: s =>
      if c = a ∧ d = b then [] :: splitPair a b s else consFirst c (splitPair a b (d :: s))

theorem splitPair_cons_of_ne {a b c : β} (hc : c ≠ a) (s : List β) :
    splitPair a b (c :: s) = consFirst c (splitPair a b s) := by
  cases s with
  | nil => rfl
  | cons d s => exact if_neg fun h => hc h.1

/-- A text without the first element of the separator is one part. -/
theorem splitPair_of_not_mem {a b : β} {s : List β} (h : a ∉ s) : splitPair a b s = [s] := by
  induction s with
  | nil => rfl
  | cons c s ih =>
      rw [List.mem_cons, not_or] at h
      rw [splitPair_cons_of_ne (Ne.symm h.1), ih h.2]
      rfl

theorem splitPair_append {a b : β} {part : List β} (h : a ∉ part) (rest : List β) :
    splitPair a b (part ++ a :: b :: rest) = part :: splitPair a b rest := by
  induction part with
  | nil => exact if_pos ⟨rfl, rfl⟩
  | cons c part ih =>
      rw [List.mem_cons, not_or] at h
      rw [List.cons_append, splitPair_cons_of_ne (Ne.symm h.1), ih h.2]
      rfl

/-- **Joined parts are told apart again where none has the first element of the separator.** -/
theorem splitPair_intercalate {a b : β} {parts : List (List β)} (hne : parts ≠ [])
    (h : ∀ part ∈ parts, a ∉ part) : splitPair a b ([a, b].intercalate parts) = parts := by
  induction parts with
  | nil => exact absurd rfl hne
  | cons part parts ih =>
      have hpart : a ∉ part := h part List.mem_cons_self
      cases parts with
      | nil =>
          rw [List.intercalate_singleton]
          exact splitPair_of_not_mem hpart
      | cons next parts =>
          rw [List.intercalate_cons_cons, List.append_assoc]
          show splitPair a b (part ++ a :: b :: [a, b].intercalate (next :: parts)) = _
          rw [splitPair_append hpart,
            ih (List.cons_ne_nil _ _) fun other hother => h other (List.mem_cons_of_mem _ hother)]

end QingzhouSSH.Lib.Splitting
